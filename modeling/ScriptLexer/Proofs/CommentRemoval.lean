/-
# Removing comments

A pass that knows only strings and comments takes the comments out of a text, and then the text is
scanned.  It is found there what is found in the whole text, at the same places: a comment reaches
to the end of its line, so that nothing stands behind it on that line but the end of the text.

The invariant is that the two scans stand at the same place, unless one of them has just passed
over a comment; then they stand on the same line, and a line feed or nothing is left before them
(`Segmentation.items_uncommented`).
-/
import ScriptLexer.Proofs.Region
import ScriptLexer.Proofs.Relocation
import ScriptLexer.Proofs.Segment.Context
import ScriptLexer.Proofs.Position

namespace ScriptLexer

/-! ## Texts without comments -/

/-- The characters that are in no comment. -/
def uncommented (cs : List Char) : List Char :=
  ((regionsFrom .code cs).filter (·.2 ≠ .comment)).map Prod.fst

/-- The text without its comments: outside a string two slashes drop everything up to the next line
feed, or to the end, and a string is copied up to and including the next quotation mark. -/
def stripComments (source : String) : String := String.ofList (uncommented source.toList)

/-- There is a comment on the last line of the text. -/
def LastLineHasComment (source : String) : Prop :=
  ∃ x ∈ (regionsFrom .code source.toList).reverse.takeWhile (·.1 != '\n'), x.2 = .comment

section Segments

variable {text rest : List Char} {outcome : Outcome} {r : Region}

lemma LiesIn.uncommented_append (h : LiesIn .comment text outcome rest) :
    uncommented (text ++ rest) = uncommented rest := by
  have hnone : (text.map fun c => (c, Region.comment)).filter (·.2 ≠ .comment) = [] := by
    simp
  rw [uncommented, h.regions, List.filter_append, hnone]
  rfl

lemma LiesIn.uncommented_append_of_ne (h : LiesIn r text outcome rest) (hr : r ≠ .comment) :
    uncommented (text ++ rest) = text ++ uncommented rest := by
  have hall : (text.map fun c => (c, r)).filter (·.2 ≠ .comment) = text.map fun c => (c, r) := by
    rw [List.filter_eq_self]
    simp [hr]
  have hfst : (text.map fun c => (c, r)).map Prod.fst = text := by
    simp [Function.comp_def]
  rw [uncommented, h.regions, List.filter_append, hall, List.map_append, hfst]
  rfl

lemma uncommented_cons {c : Char} (h : Plain c) (cs : List Char) :
    uncommented (c :: cs) = c :: uncommented cs := by
  rw [uncommented, regionsFrom_code_cons h]
  rfl

/-- Without its comments a text begins as before, or with a line feed. -/
lemma head?_uncommented (cs : List Char) :
    ∀ d ∈ (uncommented cs).head?, d = '\n' ∨ d ∈ cs.head? := by
  cases cs with
  | nil => simp [uncommented, regionsFrom]
  | cons c cs =>
    have hseg : IsSegment (Segment.first c cs).text (Segment.first c cs).outcome
        (Segment.first c cs).rest := Segment.valid_first c cs
    have htext := Segment.text_append_rest_first c cs
    obtain ⟨r, hregion⟩ := hseg.exists_liesIn
    intro d hd
    rw [← htext] at hd ⊢
    by_cases hr : r = .comment
    · -- behind a comment there is a line feed or nothing
      subst hr
      obtain ⟨-, -, hstop⟩ := hregion.comment rfl
      rw [hregion.uncommented_append] at hd
      left
      rcases hrest : (Segment.first c cs).rest with _ | ⟨e, es⟩
      · rw [hrest] at hd
        simp [uncommented, regionsFrom] at hd
      · rw [hrest] at hd hstop
        obtain rfl : e = '\n' := not_not.1 (stops_cons.1 hstop)
        rw [uncommented_cons (by decide)] at hd
        simpa using hd.symm
    · right
      obtain ⟨e, es, hcons⟩ := List.exists_cons_of_ne_nil hseg.text_ne_nil
      rw [hregion.uncommented_append_of_ne hr, hcons] at hd
      rw [hcons]
      exact hd

/-- A segment stays one when the comments are taken out of what follows it. -/
lemma IsSegment.uncommented (h : IsSegment text outcome rest) :
    IsSegment text outcome (uncommented rest) := by
  refine h.of_head ?_ ?_ ?_
  · intro d hd
    rcases head?_uncommented rest d hd with rfl | hmem
    · exact Or.inl ⟨by decide, fun _ => rfl⟩
    · exact Or.inr hmem
  · rintro c cs hc rfl
    rw [uncommented_cons (by decide), uncommented_cons hc.plain]
    exact ⟨_, rfl⟩
  · rintro - rfl
    rfl

end Segments

/-! ## Two scans at the same place -/

variable {k k' : Cursor}

lemma Cursor.place_past_congr (h : k.place = k'.place) (cs : List Char) :
    (k.past cs).place = (k'.past cs).place := by
  induction cs generalizing k k' with
  | nil => exact h
  | cons c cs ih =>
    rw [past_cons, past_cons]
    exact ih (congrArg (Place.advance · c) h)

lemma Cursor.line_past {cs : List Char} (h : ∀ c ∈ cs, c ≠ '\n') (k : Cursor) :
    (k.past cs).place.line = k.place.line := by
  induction cs generalizing k with
  | nil => rfl
  | cons c cs ih =>
    have hc : c ≠ '\n' := h c List.mem_cons_self
    rw [past_cons, ih fun d hd => h d (List.mem_cons_of_mem c hd)]
    simp [advance, Place.advance, hc]

/-- A piece stands for the same item at every cursor of the same place, the span apart. -/
lemma Piece.item?_unspanned (h : k.place = k'.place) (p : Piece) :
    (p.item? k).map Relocation.unspanned.item = (p.item? k').map Relocation.unspanned.item := by
  obtain ⟨text, outcome⟩ := p
  cases outcome <;>
    simp [Piece.item?, Segment.item?, Relocation.item, Relocation.token, Relocation.error,
      Relocation.unspanned, h]

/-- What is found in a text is found in it without its comments, at the same places. -/
lemma Segmentation.items_uncommented {cs : List Char} {ps : List Piece} (h : Segmentation cs ps)
    (hline : k.place.line = k'.place.line) (hplace : k.place = k'.place ∨ Stops (· ≠ '\n') cs) :
    (Scan.items ⟨uncommented cs, k'⟩).map Relocation.unspanned.item
      = (Scan.items ⟨cs, k⟩).map Relocation.unspanned.item := by
  induction h generalizing k k' with
  | nil =>
    have hnil : uncommented [] = [] := rfl
    rw [hnil, Scan.items_nil, Scan.items_nil]
  | @cons text rest outcome ps hseg _ ih =>
    obtain ⟨r, hregion⟩ := hseg.exists_liesIn
    by_cases hr : r = .comment
    · -- only the scan of the whole text passes over the comment, and stays on the line
      subst hr
      obtain ⟨rfl, hbody, hstop⟩ := hregion.comment rfl
      have hline' : (k.past text).place.line = k'.place.line := by
        rw [Cursor.line_past hbody, hline]
      rw [hregion.uncommented_append, hseg.items_eq, ih hline' (Or.inr hstop)]
      rfl
    · -- both scans pass over the segment, and then stand at the same place
      rw [hregion.uncommented_append_of_ne hr, hseg.uncommented.items_eq, hseg.items_eq,
        List.map_append, List.map_append, ← Option.toList_map, ← Option.toList_map]
      rcases hplace with hplace | hstop
      · have hpast := Cursor.place_past_congr hplace text
        rw [Piece.item?_unspanned hplace, ih (congrArg Place.line hpast) (Or.inl hpast)]
      · obtain ⟨rfl, rfl⟩ := hseg.eq_lineFeed hstop
        have hpast : (k.past ['\n']).place = (k'.past ['\n']).place := by
          simp [Cursor.advance, Place.advance, hline]
        rw [ih (congrArg Place.line hpast) (Or.inl hpast)]
        rfl

/-! ## The end of the text -/

lemma count_uncommented (cs : List Char) : (uncommented cs).count '\n' = cs.count '\n' := by
  have hkept : ∀ x ∈ regionsFrom .code cs,
      (x.1 == '\n' && decide (x.2 ≠ .comment)) = true ↔ (x.1 == '\n') = true := by
    intro x hx
    have hne := region_ne_comment_of_lineFeed .code cs x hx
    simpa using hne
  calc (uncommented cs).count '\n'
      = ((regionsFrom .code cs).filter (·.2 ≠ .comment)).countP (·.1 == '\n') := by
        rw [uncommented, List.count, List.countP_map]
        rfl
    _ = (regionsFrom .code cs).countP (·.1 == '\n') := by
        rw [List.countP_filter, List.countP_congr hkept]
    _ = ((regionsFrom .code cs).map Prod.fst).count '\n' := by
        rw [List.count, List.countP_map]
        rfl
    _ = cs.count '\n' := by rw [map_fst_regionsFrom]

/-- If all that is in front of the first character outside `p` is kept, and so is this character,
then the others do not matter. -/
lemma takeWhile_filter_eq {α : Type} {p q : α → Bool} {xs : List α}
    (hstop : ∀ x ∈ xs, p x = false → q x = true) (hkept : ∀ x ∈ xs.takeWhile p, q x = true) :
    (xs.filter q).takeWhile p = xs.takeWhile p := by
  induction xs with
  | nil => rfl
  | cons x xs ih =>
    have hstop' : ∀ y ∈ xs, p y = false → q y = true :=
      fun y hy => hstop y (List.mem_cons_of_mem x hy)
    by_cases hx : p x = true
    · rw [List.takeWhile_cons_of_pos hx] at hkept ⊢
      rw [List.filter_cons_of_pos (hkept x List.mem_cons_self), List.takeWhile_cons_of_pos hx,
        ih hstop' fun y hy => hkept y (List.mem_cons_of_mem x hy)]
    · have hqx : q x = true := hstop x List.mem_cons_self (by simpa using hx)
      rw [List.filter_cons_of_pos hqx, List.takeWhile_cons_of_neg hx,
        List.takeWhile_cons_of_neg hx]

lemma lastLine_uncommented {cs : List Char}
    (h : ∀ x ∈ (regionsFrom .code cs).reverse.takeWhile (·.1 != '\n'), x.2 ≠ .comment) :
    (uncommented cs).reverse.takeWhile (· != '\n') = cs.reverse.takeWhile (· != '\n') := by
  have hstop : ∀ x ∈ (regionsFrom .code cs).reverse, (x.1 != '\n') = false →
      decide (x.2 ≠ .comment) = true := by
    intro x hx hfeed
    have hne := region_ne_comment_of_lineFeed .code cs x (List.mem_reverse.1 hx)
    simpa using hne (by simpa using hfeed)
  have hkept := takeWhile_filter_eq hstop fun x hx => by simpa using h x hx
  calc (uncommented cs).reverse.takeWhile (· != '\n')
      = (((regionsFrom .code cs).reverse.filter (·.2 ≠ .comment)).takeWhile (·.1 != '\n')).map
          Prod.fst := by
        rw [uncommented, ← List.map_reverse, ← List.filter_reverse, List.takeWhile_map]
        rfl
    _ = ((regionsFrom .code cs).reverse.takeWhile (·.1 != '\n')).map Prod.fst := by rw [hkept]
    _ = ((regionsFrom .code cs).map Prod.fst).reverse.takeWhile (· != '\n') := by
        rw [← List.map_reverse, List.takeWhile_map]
        rfl
    _ = cs.reverse.takeWhile (· != '\n') := by rw [map_fst_regionsFrom]

lemma Token.reading_endOfFile (k : Cursor) :
    (endOfFile k).reading = .token .endOfFile "" none := rfl

/-- **Comments may be removed before a text is scanned.**  The errors are those of the whole text,
and so are the tokens in kind, lexeme, value and place, in the same order; only their spans differ.
The token that closes the text says the same on the same line, and in the same column unless there
is a comment on the last line. -/
theorem scan_stripComments (source : String) :
    (scan (stripComments source)).errors = (scan source).errors ∧
      (scan (stripComments source)).body.map Relocation.unspanned.token
        = (scan source).body.map Relocation.unspanned.token ∧
      ∃ close close' : Token,
        (scan source).tokens = (scan source).body ++ [close] ∧
        (scan (stripComments source)).tokens = (scan (stripComments source)).body ++ [close'] ∧
        close'.reading = close.reading ∧ close'.place.line = close.place.line ∧
        (close'.place.column = close.place.column ∨ LastLineHasComment source) := by
  obtain ⟨pieces, hpieces⟩ := Segmentation.exists_pieces source.toList
  have htext : (stripComments source).toList = uncommented source.toList := by
    rw [stripComments, String.toList_ofList]
  have hitems : (Scan.ofString (stripComments source)).items.map Relocation.unspanned.item
      = (Scan.ofString source).items.map Relocation.unspanned.item := by
    rw [Scan.ofString, htext]
    exact hpieces.items_uncommented rfl (Or.inl rfl)
  have herror : Relocation.unspanned.error = id := rfl
  refine ⟨?_, ?_, .endOfFile (Cursor.start.past source.toList),
    .endOfFile (Cursor.start.past (stripComments source).toList), tokens_scan source,
    tokens_scan (stripComments source), ?_, ?_, ?_⟩
  · have herrors := congrArg (List.filterMap Item.error?) hitems
    rw [Relocation.filterMap_error?_map_item, Relocation.filterMap_error?_map_item, herror,
      List.map_id, List.map_id] at herrors
    rw [errors_scan, errors_scan, herrors]
  · have htokens := congrArg (List.filterMap Item.token?) hitems
    rw [Relocation.filterMap_token?_map_item, Relocation.filterMap_token?_map_item] at htokens
    rw [body_scan, body_scan, htokens]
  · rw [Token.reading_endOfFile, Token.reading_endOfFile]
  · rw [Cursor.past_start, Cursor.past_start, htext]
    exact congrArg (1 + ·) (count_uncommented source.toList)
  · by_cases hlast : LastLineHasComment source
    · exact Or.inr hlast
    · left
      have hline : ∀ x ∈ (regionsFrom .code source.toList).reverse.takeWhile (·.1 != '\n'),
          x.2 ≠ .comment := fun x hx hcomment => hlast ⟨x, hx, hcomment⟩
      rw [Cursor.past_start, Cursor.past_start, htext]
      exact congrArg (1 + List.length ·) (lastLine_uncommented hline)

/-- Slashes in a string are no comment, and a quotation mark in a comment opens no string. -/
example : stripComments "\"//\" 1.// \"\n!//=" = "\"//\" 1.\n!" := by
  cbv

end ScriptLexer

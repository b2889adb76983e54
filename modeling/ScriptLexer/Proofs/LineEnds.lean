/-
# Line ends

Some texts end their lines with a carriage return and a line feed instead of a line feed alone.
This makes no difference: if the carriage returns in front of line feeds are taken out of a text,
what is found in it stays the same and stands at the same places, and only the strings that hold
such a line end change as the text does.

A carriage return is a blank in code and an ordinary character in comments and strings, and no run
goes on with one, so the text falls into the same segments as before (`IsSegment.unified`).  The two
scans stand at the same place, unless the one of the whole text has just passed over a carriage
return; then they are on the same line, and a line feed is left before them (`Cursor.Abreast`).
-/
import ScriptLexer.Proofs.Relocation
import ScriptLexer.Proofs.Segment.Context
import ScriptLexer.Proofs.Position

namespace ScriptLexer

/-! ## Texts with one kind of line end -/

/-- The text with a line feed for every carriage return and line feed. -/
def unified : List Char → List Char
  | '\r' :: '\n' :: cs => '\n' :: unified cs
  | c :: cs => c :: unified cs
  | [] => []

/-- The text with a line feed for every carriage return and line feed. -/
def unifyLineEnds (source : String) : String := String.ofList (unified source.toList)

/-- The value with the line ends of a string unified. -/
def Literal.unifyLineEnds : Literal → Literal
  | string value => string (ScriptLexer.unifyLineEnds value)
  | number value => number value

/-- What a segment stands for when the line ends in it are unified. -/
def Outcome.unifyLineEnds : Outcome → Outcome
  | token kind literal => token kind (literal.map Literal.unifyLineEnds)
  | outcome => outcome

/-- The token with the line ends in its lexeme and its value unified. -/
def Token.unifyLineEnds (t : Token) : Token :=
  { t with
    lexeme := ScriptLexer.unifyLineEnds t.lexeme
    literal := t.literal.map Literal.unifyLineEnds }

/-- The item with the line ends of a token unified.  The words of an error stay. -/
def Item.unifyLineEnds : Item → Item
  | token t => token t.unifyLineEnds
  | error e => error e

/-! ## A piece of a text -/

/-- What is left of the characters of a piece in front of `rest`: a carriage return goes if a line
feed comes next. -/
def keptBefore (rest : List Char) : List Char → List Char
  | [] => []
  | c :: cs =>
    if c = '\r' ∧ '\n' ∈ (cs ++ rest).head? then keptBefore rest cs else c :: keptBefore rest cs

section Pieces

variable {c : Char} {text rest cs ds : List Char}

lemma unified_cons_of_lineFeed (h : '\n' ∈ cs.head?) : unified ('\r' :: cs) = unified cs := by
  obtain ⟨cs, rfl⟩ := List.head?_eq_some_iff.1 h
  rw [unified, unified]
  simp

lemma unified_cons (h : ¬ (c = '\r' ∧ '\n' ∈ cs.head?)) : unified (c :: cs) = c :: unified cs := by
  rw [unified]
  rintro cs' rfl rfl
  exact h ⟨rfl, rfl⟩

lemma unified_append (text rest : List Char) :
    unified (text ++ rest) = keptBefore rest text ++ unified rest := by
  induction text with
  | nil => rfl
  | cons c text ih =>
    rw [List.cons_append, keptBefore]
    split
    · next h => rw [h.1, unified_cons_of_lineFeed h.2, ih]
    · next h => rw [unified_cons h, ih, List.cons_append]

@[simp] lemma unifyLineEnds_ofList :
    unifyLineEnds (String.ofList text) = String.ofList (unified text) := by
  rw [unifyLineEnds, String.toList_ofList]

lemma unified_eq : unified text = keptBefore [] text := by
  have h := unified_append text []
  rwa [List.append_nil, unified, List.append_nil] at h

lemma keptBefore_append :
    keptBefore rest (cs ++ ds) = keptBefore (ds ++ rest) cs ++ keptBefore rest ds := by
  induction cs with
  | nil => rfl
  | cons c cs ih =>
    rw [List.cons_append, keptBefore, keptBefore, ih, List.append_assoc]
    split <;> rfl

lemma keptBefore_of_forall_ne (h : ∀ c ∈ text, c ≠ '\r') : keptBefore rest text = text := by
  induction text with
  | nil => rfl
  | cons c text ih =>
    have hc : c ≠ '\r' := h c List.mem_cons_self
    rw [keptBefore, if_neg fun h => hc h.1, ih fun d hd => h d (List.mem_cons_of_mem c hd)]

/-- What is left of a piece does not depend on what follows it, if this is no line feed. -/
lemma keptBefore_of_stops (h : Stops (· = '\n') rest) : keptBefore rest text = unified text := by
  have hhead : ∀ cs : List Char, '\n' ∈ (cs ++ rest).head? ↔ '\n' ∈ (cs ++ []).head? := by
    intro cs
    cases cs with
    | nil => exact ⟨fun hmem => absurd rfl (h _ hmem), fun hmem => absurd hmem (by simp)⟩
    | cons c cs => exact Iff.rfl
  rw [unified_eq]
  induction text with
  | nil => rfl
  | cons c text ih => simp only [keptBefore, hhead text, ih]

lemma mem_of_mem_keptBefore (h : c ∈ keptBefore rest text) : c ∈ text := by
  induction text with
  | nil => exact h
  | cons d text ih =>
    rw [keptBefore] at h
    split at h
    · exact List.mem_cons_of_mem d (ih h)
    · rcases List.mem_cons.1 h with rfl | hmem
      · exact List.mem_cons_self
      · exact List.mem_cons_of_mem d (ih hmem)

/-- A text with its line ends unified begins as before, or with a line feed. -/
lemma head?_unified (cs : List Char) : ∀ d ∈ (unified cs).head?, d = '\n' ∨ d ∈ cs.head? := by
  intro d hd
  fun_cases unified cs with
  | case1 cs => exact Or.inl (by simpa [unified] using hd.symm)
  | case2 c cs hc => exact Or.inr (by simpa [unified] using hd)
  | case3 => exact Or.inr hd

end Pieces

/-! ## Segments -/

section Segments

variable {text rest : List Char} {outcome : Outcome}

/-- A segment stays one when the line ends in what follows it are unified. -/
lemma IsSegment.unified_rest (h : IsSegment text outcome rest) :
    IsSegment text outcome (unified rest) := by
  refine h.of_head ?_ ?_ ?_
  · intro d hd
    rcases head?_unified rest d hd with rfl | hmem
    · exact Or.inl ⟨by decide, fun _ => rfl⟩
    · exact Or.inr hmem
  · rintro c cs hc rfl
    have hreturn : c ≠ '\r' := by
      rintro rfl
      exact absurd hc (by decide)
    rw [unified_cons (by simp), unified_cons fun h => hreturn h.1]
    exact ⟨_, rfl⟩
  · rintro - rfl
    rfl

lemma keptBefore_quoted {body : List Char} :
    keptBefore rest ('"' :: (body ++ ['"'])) = '"' :: (unified body ++ ['"']) := by
  have hquote : Stops (· = '\n') ('"' :: rest) := stops_cons.2 (by decide)
  rw [keptBefore, if_neg (by simp), keptBefore_append, List.singleton_append,
    keptBefore_of_stops hquote]
  rfl

/-- Only in blanks, comments and strings does anything go. -/
lemma IsSegment.keptBefore_eq_self (h : IsSegment text outcome rest) (hnothing : outcome ≠ .nothing)
    (hstring : ∀ value, outcome ≠ .token .string value)
    (hopen : outcome ≠ .error .unterminatedString) (rest' : List Char) :
    keptBefore rest' text = text := by
  refine keptBefore_of_forall_ne fun c hc hreturn => ?_
  have hblank : Blank c := Or.inr (Or.inr (Or.inl hreturn))
  exact h.not_blank hnothing hstring hopen c hc hblank

/-- What is left of a token or an error does not depend on what follows it. -/
lemma IsSegment.keptBefore_eq (h : IsSegment text outcome rest) (hout : outcome ≠ .nothing) :
    keptBefore rest text = unified text := by
  have hself := h.keptBefore_eq_self hout
  rw [unified_eq]
  cases h with
  | blank => exact absurd rfl hout
  | comment => exact absurd rfl hout
  | string => rw [keptBefore_quoted, keptBefore_quoted]
  | unterminated => rfl
  | _ => rw [hself (by simp) (by simp), hself (by simp) (by simp)]

/-- A segment is one still when the line ends are unified, in it and behind it, unless it is a
carriage return that goes. -/
lemma IsSegment.unified (h : IsSegment text outcome rest) :
    (keptBefore rest text = [] ∧ outcome = .nothing) ∨
      IsSegment (keptBefore rest text) outcome.unifyLineEnds (unified rest) := by
  have hself := h.keptBefore_eq_self
  have hrest := h.unified_rest
  have hmem : ∀ body : List Char, ∀ c ∈ ScriptLexer.unified body, c ∈ body := by
    intro body c hc
    rw [unified_eq] at hc
    exact mem_of_mem_keptBefore hc
  cases h with
  | @blank c _ hc =>
    rw [keptBefore, keptBefore]
    split
    · exact Or.inl ⟨rfl, rfl⟩
    · exact Or.inr hrest
  | @comment body _ hbody hstop =>
    right
    have hstop' : Stops (· ≠ '\n') (ScriptLexer.unified rest) :=
      hstop.of_head fun d hd => (head?_unified rest d hd).imp_left not_not.2
    rw [keptBefore, if_neg (by simp), keptBefore, if_neg (by simp)]
    exact .comment (fun c hc => hbody c (mem_of_mem_keptBefore hc)) hstop'
  | @string body _ hbody =>
    right
    rw [keptBefore_quoted, Outcome.unifyLineEnds, Option.map_some, Literal.unifyLineEnds,
      unifyLineEnds_ofList]
    exact .string fun c hc => hbody c (hmem body c hc)
  | @unterminated body hbody =>
    right
    rw [keptBefore, if_neg (by simp), ← unified_eq]
    exact .unterminated fun c hc => hbody c (hmem body c hc)
  | _ =>
    right
    rw [hself (by simp) (by simp) (by simp)]
    exact hrest

end Segments

/-! ## Two scans at the same place -/

variable {k k' : Cursor} {cs : List Char}

/-- The cursors of two scans with the characters `cs` left are on the same line, and at the same
place unless a line feed comes next. -/
def Cursor.Abreast (cs : List Char) (k k' : Cursor) : Prop :=
  k.place.line = k'.place.line ∧ (k.place = k'.place ∨ '\n' ∈ cs.head?)

/-- Behind a piece the scans are abreast again, if one of them has passed over what is left of
it. -/
lemma Cursor.Abreast.past {text rest : List Char} (h : Abreast (text ++ rest) k k') :
    Abreast rest (k.past text) (k'.past (keptBefore rest text)) := by
  induction text generalizing k k' with
  | nil => exact h
  | cons c text ih =>
    obtain ⟨hline, hplace⟩ := h
    rw [keptBefore]
    split
    · -- only the scan of the whole text passes over the carriage return, and stays on the line
      next hreturn =>
      obtain ⟨rfl, hfeed⟩ := hreturn
      exact ih ⟨hline, Or.inr hfeed⟩
    · refine ih ?_
      rcases hplace with hplace | hfeed
      · have hadvance := congrArg (Place.advance · c) hplace
        exact ⟨congrArg Place.line hadvance, Or.inl hadvance⟩
      · obtain rfl : c = '\n' := by simpa using hfeed
        have hadvance : (k.advance '\n').place = (k'.advance '\n').place := by
          simp [Cursor.advance, Place.advance, hline]
        exact ⟨congrArg Place.line hadvance, Or.inl hadvance⟩

/-- A piece stands for the same item at every cursor of the same place when the line ends in it are
unified, the span apart. -/
lemma Piece.item?_unified {text : List Char} {outcome : Outcome} (h : k.place = k'.place) :
    ((⟨unified text, outcome.unifyLineEnds⟩ : Piece).item? k').map Relocation.unspanned.item
      = ((⟨text, outcome⟩ : Piece).item? k).map
          fun item => Relocation.unspanned.item item.unifyLineEnds := by
  cases outcome <;>
    simp [Piece.item?, Segment.item?, Relocation.item, Relocation.token, Relocation.error,
      Relocation.unspanned, Item.unifyLineEnds, Token.unifyLineEnds, Outcome.unifyLineEnds, h]

/-- What is found in a text is found in it with its line ends unified, at the same places. -/
lemma Segmentation.items_unified {ps : List Piece} (h : Segmentation cs ps)
    (habreast : Cursor.Abreast cs k k') :
    (Scan.items ⟨unified cs, k'⟩).map Relocation.unspanned.item
      = (Scan.items ⟨cs, k⟩).map fun item => Relocation.unspanned.item item.unifyLineEnds := by
  induction h generalizing k k' with
  | nil =>
    have hnil : unified [] = [] := rfl
    rw [hnil, Scan.items_nil, Scan.items_nil]
    rfl
  | @cons text rest outcome ps hseg _ ih =>
    have hrest := ih habreast.past
    rw [unified_append]
    rcases hseg.unified with ⟨hgone, rfl⟩ | hseg'
    · rw [hgone] at hrest ⊢
      rw [List.nil_append, hseg.items_eq]
      exact hrest
    rw [hseg'.items_eq, hseg.items_eq, List.map_append, List.map_append, hrest, ← Option.toList_map,
      ← Option.toList_map]
    by_cases hout : outcome = .nothing
    · subst hout
      rfl
    · -- in front of a line feed the segment would stand for nothing
      have hplace : k.place = k'.place := by
        refine habreast.2.resolve_right fun hfeed => hout ?_
        refine (hseg.eq_lineFeed fun c hc hne => hne ?_).2
        exact Option.some.inj (hc.symm.trans hfeed)
      rw [hseg.keptBefore_eq hout, Piece.item?_unified hplace]

/-- **Line ends make no difference.**  If every carriage return and line feed in a text is replaced
by a line feed, the errors stay as they are, and so do the tokens in kind, line, column and order,
the one that closes the text included.  Their lexemes and the values of strings are what the same
replacement makes of them, and only the spans differ. -/
theorem scan_unifyLineEnds (source : String) :
    (scan (unifyLineEnds source)).errors = (scan source).errors ∧
      (scan (unifyLineEnds source)).tokens.map Relocation.unspanned.token
        = (scan source).tokens.map fun t => Relocation.unspanned.token t.unifyLineEnds := by
  obtain ⟨pieces, hpieces⟩ := Segmentation.exists_pieces source.toList
  have htext : (unifyLineEnds source).toList = unified source.toList := String.toList_ofList
  have hstart : Cursor.Abreast source.toList Cursor.start Cursor.start := ⟨rfl, Or.inl rfl⟩
  have hitems : (Scan.ofString (unifyLineEnds source)).items.map Relocation.unspanned.item
      = (Scan.ofString source).items.map
          fun item => Relocation.unspanned.item item.unifyLineEnds := by
    rw [Scan.ofString, htext]
    exact hpieces.items_unified hstart
  have herror : Relocation.unspanned.error = id := rfl
  constructor
  · have herrors := congrArg (List.filterMap Item.error?) hitems
    rw [Relocation.filterMap_error?_map_item,
      Item.filterMap_error?_map (f := id) fun item => by cases item <;> rfl, herror, List.map_id,
      List.map_id] at herrors
    rw [errors_scan, errors_scan, herrors]
  · have htokens := congrArg (List.filterMap Item.token?) hitems
    rw [Relocation.filterMap_token?_map_item,
      Item.filterMap_token?_map (f := fun t => Relocation.unspanned.token t.unifyLineEnds)
        fun item => by cases item <;> rfl] at htokens
    -- nothing is left at the end of the text, so that the scans stand at the same place there
    have hend : (Cursor.start.past source.toList).place
        = (Cursor.start.past (unified source.toList)).place := by
      have hpast : Cursor.Abreast [] (Cursor.start.past source.toList)
          (Cursor.start.past (keptBefore [] source.toList)) :=
        Cursor.Abreast.past (by rwa [List.append_nil])
      rw [unified_eq]
      exact hpast.2.resolve_right (by simp)
    have hclose :
        Relocation.unspanned.token (.endOfFile (Cursor.start.past (unified source.toList)))
          = Relocation.unspanned.token
              (Token.endOfFile (Cursor.start.past source.toList)).unifyLineEnds := by
      simp only [Relocation.token, Relocation.unspanned, Token.endOfFile, Token.unifyLineEnds, hend]
      rfl
    rw [tokens_scan, tokens_scan, List.map_append, List.map_append, body_scan, body_scan, htokens,
      htext, List.map_singleton, List.map_singleton, hclose]

/-- Of two carriage returns in front of a line feed one stays. -/
example : unifyLineEnds "\"\r\r\n\" 1.\r\n\r" = "\"\r\n\" 1.\n\r" := by
  cbv

end ScriptLexer

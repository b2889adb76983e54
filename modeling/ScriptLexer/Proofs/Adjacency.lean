/-
# Numbers and names side by side

A numeral and a name need something between them to be told apart.  Where the digits of a whole
number run into a name, the rules make one error of the two, and so a whole number is never followed
at once by a name.  They make no such provision for the digits behind a point: there the number ends
where the name begins, and the two are tokens side by side.

The step is `IsSegment.apart`, about a numeral and the pieces behind it, and the run is
`Segmentation.pairwise_apart`, by induction on the segmentation.  The invariant is the text before.
Conversely a letter behind a number with a point begins a name (`exists_name_of_meetsLetter`).
-/
import ScriptLexer.Proofs.Lexeme

namespace ScriptLexer

/-! ## Names -/

/-- The kinds of words: names and reserved words. -/
def TokenKind.IsWord (kind : TokenKind) : Prop := kind = .identifier ∨ kind.isKeyword = true

instance : DecidablePred TokenKind.IsWord := fun _ => inferInstanceAs (Decidable (_ ∨ _))

lemma TokenKind.isWord_ofWord (word : String) : (TokenKind.ofWord word).IsWord := by
  unfold TokenKind.ofWord
  split
  · exact Or.inr rfl
  · exact Or.inl rfl

variable {text rest : List Char} {kind : TokenKind} {literal : Option Literal}

lemma IsSegment.word (h : IsSegment text (.token kind literal) rest) (hkind : kind.IsWord) :
    Word text := by
  cases h with
  | keyword => exact word_spelling _
  | identifier hw => exact hw
  | _ => exact absurd hkind (by simp [TokenKind.IsWord, TokenKind.isKeyword])

lemma Numeral.dot_mem {whole fraction : List Char} (h : Numeral text whole fraction)
    (hne : fraction ≠ []) : '.' ∈ text := by
  cases h with
  | whole => exact absurd rfl hne
  | pointed => exact List.mem_append_right _ List.mem_cons_self

lemma Numeral.eq_of_dot_mem {whole fraction : List Char} (h : Numeral text whole fraction)
    (hdot : '.' ∈ text) : text = whole ++ '.' :: fraction ∧ Digits whole ∧ Digits fraction := by
  cases h with
  | whole hds => exact absurd (hds.2 '.' hdot) (by decide)
  | pointed hds hfs => exact ⟨rfl, hds, hfs⟩

/-! ## A number and the names behind it -/

/-- The numbers of a text are separated from the names behind them: between a number and a later
name there is at least one byte. -/
def NumbersSeparated (source : String) : Prop :=
  (scan source).tokens.Pairwise fun t u =>
    t.kind = .number → u.kind.IsWord → t.span.stop < u.span.start

/-- A letter of the text stands right behind the token. -/
def Token.MeetsLetter (source : List Char) (t : Token) : Prop :=
  ∃ before c after, source = before ++ c :: after ∧ byteSize before = t.span.stop ∧ Letter c

/-- If `t` is a number and `u` a name, then there is something between the two, or else `t` has a
point, `u` stands right behind it, and begins with the letter that does. -/
def Token.Apart (source : List Char) (t u : Token) : Prop :=
  t.kind = .number → u.kind.IsWord →
    t.span.stop < u.span.start ∨
      t.span.stop = u.span.start ∧ '.' ∈ t.lexeme.toList ∧ t.MeetsLetter source

/-- A number is apart from every name among the pieces behind it. -/
lemma IsSegment.apart {before : List Char} {ps : List Piece} {t u : Token}
    (h : IsSegment t.lexeme.toList (.token t.kind t.literal) rest) (hps : Segmentation rest ps)
    (ht : t.span.stop = byteSize (before ++ t.lexeme.toList))
    (hu : .token u ∈ Piece.itemsFrom (Cursor.behind (before ++ t.lexeme.toList)) ps) :
    t.Apart (before ++ (t.lexeme.toList ++ rest)) u := by
  intro hnumber hword
  obtain ⟨between, p, after, rfl, hitem⟩ := Piece.exists_of_mem_itemsFrom hu
  rw [Cursor.past_behind] at hitem
  obtain ⟨hp, hspan⟩ := Piece.eq_of_item?_eq_token hitem
  have hstart : u.span.start = t.span.stop + byteSize (Piece.textOf between) := by
    rw [hspan, ht, byteSize_append _ (Piece.textOf between)]
  by_cases hbetween : Piece.textOf between = []
  · -- then a letter follows the numeral, which only a point before its last digits allows
    have hname : Word p.text := by
      have hseg := hps.isSegment
      rw [hp] at hseg ⊢
      exact hseg.word hword
    obtain ⟨c, w, hcw, hc⟩ := hname.exists_cons
    have hrest : rest = c :: (w ++ Piece.textOf after) := by
      rw [← hps.textOf_eq, Piece.textOf_append, Piece.textOf_cons, hbetween, hcw]
      rfl
    rw [hnumber] at h
    obtain ⟨whole, fraction, hn, -, hletter⟩ := h.numeral
    have hfraction : fraction ≠ [] := by
      intro hnil
      have hstop := hletter hnil
      rw [hrest, stops_cons] at hstop
      exact hstop hc
    have hsource : before ++ (t.lexeme.toList ++ rest)
        = before ++ t.lexeme.toList ++ c :: (w ++ Piece.textOf after) := by
      rw [hrest, List.append_assoc]
    rw [hbetween] at hstart
    exact Or.inr ⟨hstart.symm, hn.dot_mem hfraction, _, c, _, hsource, ht.symm, hc⟩
  · have hpos := byteSize_pos hbetween
    exact Or.inl (by omega)

/-- Every number of a text is apart from every later name. -/
lemma Segmentation.pairwise_apart {cs : List Char} {ps : List Piece} (h : Segmentation cs ps)
    (before : List Char) :
    (Piece.itemsFrom (Cursor.behind before) ps).Pairwise fun x y =>
      ∀ t ∈ x.token?, ∀ u ∈ y.token?, t.Apart (before ++ cs) u := by
  induction h generalizing before with
  | nil => exact List.Pairwise.nil
  | @cons text rest outcome ps hseg hps ih =>
    rw [Piece.itemsFrom_cons, Cursor.past_behind, List.pairwise_append]
    have hrest := ih (before ++ text)
    rw [List.append_assoc] at hrest
    refine ⟨?_, hrest, ?_⟩
    · cases (⟨text, outcome⟩ : Piece).item? (Cursor.behind before) with
      | none => exact List.Pairwise.nil
      | some item => exact List.pairwise_singleton _ item
    · intro x hx y hy t ht u hu
      obtain rfl : x = .token t := by
        cases x with
        | token s => exact congrArg Item.token (Option.some.inj ht)
        | error e => exact absurd ht (by simp)
      obtain rfl : y = .token u := by
        cases y with
        | token s => exact congrArg Item.token (Option.some.inj hu)
        | error e => exact absurd hu (by simp)
      obtain ⟨hpiece, hspan⟩ := Piece.eq_of_item?_eq_token (Option.mem_toList.1 hx)
      obtain ⟨rfl, rfl⟩ := Piece.mk.inj hpiece
      exact hseg.apart hps (congrArg Span.stop hspan) hy

/-! ## What runs into a letter -/

/-- The rules leave no choice where a segment ends. -/
lemma Segmentation.eq_of_isSegment {cs : List Char} {before after : List Piece} {p : Piece}
    {outcome : Outcome} (h : Segmentation cs (before ++ p :: after))
    (hseg : IsSegment text outcome rest) (htext : p.text ++ Piece.textOf after = text ++ rest) :
    p = ⟨text, outcome⟩ ∧ Piece.textOf after = rest := by
  obtain ⟨d, ds, hds, hfirst⟩ := hseg.exists_first
  have hfirst' := Segment.first_eq_of_isSegment h.isSegment (htext.trans hds)
  obtain ⟨rfl, rfl, rfl⟩ := Segment.mk.inj (hfirst.symm.trans hfirst')
  exact ⟨rfl, rfl⟩

variable {source : String} {before after : List Piece} {p : Piece} {whole fraction : List Char}
  {c : Char}

lemma Segmentation.reading_of_digits_letter
    (h : Segmentation source.toList (before ++ p :: after))
    (htext : p.text ++ Piece.textOf after = whole ++ c :: rest) (hwhole : Digits whole)
    (hc : Letter c) :
    p.reading? = some (.error "Invalid identifier: cannot start with a number") := by
  have hstop : Stops WordChar ((c :: rest).dropWhile continuesName) :=
    stops_dropWhile fun _ => continuesName_iff
  have hword : Word ((c :: rest).takeWhile continuesName) := word_takeWhile hc
  have hseg := IsSegment.digitsWord hwhole hword hstop
  rw [← List.takeWhile_append_dropWhile (p := continuesName) (l := c :: rest),
    ← List.append_assoc] at htext
  obtain ⟨rfl, -⟩ := h.eq_of_isSegment hseg htext
  rfl

/-- Digits behind a point that run into a letter are a number nonetheless, and the word is a token
of its own. -/
lemma Segmentation.readings_of_fraction_letter
    (h : Segmentation source.toList (before ++ p :: after))
    (htext : p.text ++ Piece.textOf after = whole ++ '.' :: fraction ++ c :: rest)
    (hwhole : Digits whole) (hfraction : Digits fraction) (hc : Letter c) :
    (∃ literal, p = ⟨whole ++ '.' :: fraction, .token .number literal⟩) ∧
      ∃ q others kind, after = q :: others ∧ q.outcome = .token kind none ∧ kind.IsWord := by
  have hdot : c ≠ '.' := by
    rintro rfl
    exact absurd hc (by decide)
  have hnumber : IsSegment (whole ++ '.' :: fraction) _ (c :: rest) :=
    .number (.pointed hwhole hfraction) (stops_cons.2 hdot) (stops_cons.2 hc.not_digit)
      fun hnil => absurd hnil hfraction.1
  obtain ⟨hp, hafter⟩ := h.eq_of_isSegment hnumber htext
  refine ⟨⟨_, hp⟩, ?_⟩
  cases after with
  | nil => exact absurd hafter (by simp)
  | cons q others =>
    have hword : IsSegment ((c :: rest).takeWhile continuesName) _ _ := Segment.valid_ofWord hc
    have hrest : Segmentation source.toList (before ++ [p] ++ q :: others) := by
      rw [List.append_assoc]
      exact h
    obtain ⟨rfl, -⟩ := hrest.eq_of_isSegment hword
      (hafter.trans List.takeWhile_append_dropWhile.symm)
    exact ⟨_, others, _, rfl, rfl, TokenKind.isWord_ofWord _⟩

lemma pairwise_apart_tokens (source : String) :
    (scan source).tokens.Pairwise (Token.Apart source.toList) := by
  obtain ⟨ps, hps⟩ := Segmentation.exists_pieces source.toList
  have hbody : (scan source).body.Pairwise (Token.Apart source.toList) := by
    have hitems := hps.pairwise_apart []
    rw [← Cursor.start_eq_behind, ← hps.items_eq] at hitems
    rw [body_scan]
    exact hitems.filterMap Item.token? fun _ _ h t ht u hu => h t ht u hu
  rw [tokens_scan, List.pairwise_append]
  refine ⟨hbody, List.pairwise_singleton _ _, fun t _ u hu _ hword => ?_⟩
  -- what closes the text is no name
  rw [List.mem_singleton.1 hu] at hword
  exact absurd hword (by decide : ¬ TokenKind.endOfFile.IsWord)

/-- Where a text is divided is seen from the bytes before. -/
lemma append_inj_of_byteSize {v w x y : List Char} (h : v ++ x = w ++ y)
    (hsize : byteSize v = byteSize w) : v = w ∧ x = y := by
  have hnil : ∀ {u z : List Char}, byteSize u = byteSize (u ++ z) → z = [] := by
    intro u z hu
    rw [byteSize_append] at hu
    by_contra hz
    have hpos := byteSize_pos hz
    omega
  rcases List.append_eq_append_iff.1 h with ⟨z, rfl, rfl⟩ | ⟨z, rfl, rfl⟩
  · obtain rfl := hnil hsize
    exact ⟨(List.append_nil v).symm, rfl⟩
  · obtain rfl := hnil hsize.symm
    exact ⟨List.append_nil w, rfl⟩

lemma Segmentation.items_of_neighbours {source : String} {before after : List Piece} {p q : Piece}
    {x y : Item} (h : Segmentation source.toList (before ++ p :: q :: after))
    (hx : p.item? (Cursor.behind (Piece.textOf before)) = some x)
    (hy : q.item? (Cursor.behind (Piece.textOf before ++ p.text)) = some y) :
    ∃ front back, (Scan.ofString source).items = front ++ x :: y :: back := by
  rw [Scan.ofString, h.items_eq, Cursor.start_eq_behind, Piece.itemsFrom_append,
    Piece.itemsFrom_cons, Piece.itemsFrom_cons, Cursor.past_behind, Cursor.past_behind,
    List.nil_append, hx, hy]
  exact ⟨_, _, rfl⟩

/-- The token behind a number with a point that a letter follows is a name, and nothing is between
the two. -/
lemma exists_name_of_meetsLetter {source : String} {t : Token} (ht : t ∈ (scan source).tokens)
    (hnumber : t.kind = .number) (hdot : '.' ∈ t.lexeme.toList)
    (hmeets : t.MeetsLetter source.toList) :
    ∃ front u back, (scan source).tokens = front ++ t :: u :: back ∧ u.kind.IsWord ∧
      u.span.start = t.span.stop := by
  have hbody := mem_body_of_mem_tokens ht (by rw [hnumber]; exact TokenKind.noConfusion)
  obtain ⟨before, p, after, hps, hitem⟩ := exists_piece_of_mem_body hbody
  obtain ⟨hp, hspan⟩ := Piece.eq_of_item?_eq_token hitem
  obtain ⟨v, c, w, hsource, hsize, hc⟩ := hmeets
  -- the letter is the first character behind the piece of the number
  have hafter : Piece.textOf after = c :: w := by
    have htext := hps.textOf_eq
    rw [Piece.textOf_append, Piece.textOf_cons, ← List.append_assoc] at htext
    refine (append_inj_of_byteSize (htext.trans hsource) ?_).2
    rw [hsize, hspan]
  have hseg := hps.isSegment
  rw [hp, hnumber] at hseg
  obtain ⟨whole, fraction, hn, -, -⟩ := hseg.numeral
  obtain ⟨hlexeme, hwhole, hfraction⟩ := hn.eq_of_dot_mem hdot
  have htext : p.text ++ Piece.textOf after = whole ++ '.' :: fraction ++ c :: w := by
    rw [hafter, hp, hlexeme]
  obtain ⟨-, ⟨text, outcome⟩, others, kind, rfl, rfl, hword⟩ :=
    hps.readings_of_fraction_letter htext hwhole hfraction hc
  have hname := Piece.item?_token (Piece.textOf before ++ p.text) text kind none
  obtain ⟨front, back, hitems⟩ := hps.items_of_neighbours hitem hname
  have htokens := tokens_scan source
  rw [body_scan, hitems, List.filterMap_append, List.append_assoc] at htokens
  refine ⟨_, _, _, htokens, hword, ?_⟩
  rw [hspan]

/-- **A whole number is never followed at once by a name.**  The numbers of a text are separated
from the names behind them exactly if no letter stands right behind a number with a point.  Digits
that run into a letter are reported as an error wherever a segment begins with them; but digits
behind a point that run into a letter end a number there, and a name or a reserved word is the next
token. -/
theorem number_apart_from_name (source : String) :
    (NumbersSeparated source ↔ ∀ t ∈ (scan source).tokens,
      t.kind = .number → '.' ∈ t.lexeme.toList → ¬ t.MeetsLetter source.toList) ∧
    (∀ before p after whole c rest, Segmentation source.toList (before ++ p :: after) →
      p.text ++ Piece.textOf after = whole ++ c :: rest → Digits whole → Letter c →
      p.reading? = some (.error "Invalid identifier: cannot start with a number")) ∧
    (∀ before p after whole fraction c rest, Segmentation source.toList (before ++ p :: after) →
      p.text ++ Piece.textOf after = whole ++ '.' :: fraction ++ c :: rest →
      Digits whole → Digits fraction → Letter c →
      (∃ literal, p = ⟨whole ++ '.' :: fraction, .token .number literal⟩) ∧
        ∃ q others kind, after = q :: others ∧ q.outcome = .token kind none ∧ kind.IsWord) := by
  refine ⟨⟨?_, ?_⟩, ?_, ?_⟩
  · intro hseparated t ht hnumber hdot hmeets
    obtain ⟨front, u, back, htokens, hword, hstart⟩ :=
      exists_name_of_meetsLetter ht hnumber hdot hmeets
    rw [NumbersSeparated, htokens, List.pairwise_append, List.pairwise_cons] at hseparated
    have hlt := hseparated.2.1.1 u List.mem_cons_self hnumber hword
    omega
  · intro hnone
    refine (pairwise_apart_tokens source).imp_of_mem fun ht _ happart hnumber hword => ?_
    rcases happart hnumber hword with hlt | ⟨-, hdot, hmeets⟩
    · exact hlt
    · exact absurd hmeets (hnone _ ht hnumber hdot)
  · intro before p after whole c rest h htext hwhole hc
    exact h.reading_of_digits_letter htext hwhole hc
  · intro before p after whole fraction c rest h htext hwhole hfraction hc
    exact h.readings_of_fraction_letter htext hwhole hfraction hc

/-- A number with a point and a reserved word with a blank between them, the digits of a whole
number that run into a letter, and digits behind a point that do. -/
theorem number_apart_from_name_of_samples :
    ((∃ t ∈ (scan "1.5 or").tokens, t.kind = .number ∧ '.' ∈ t.lexeme.toList) ∧
      NumbersSeparated "1.5 or") ∧
    (Segmentation "7x".toList ([] ++ ⟨['7', 'x'], .error .nameAfterDigits⟩ :: []) ∧
      Digits ['7'] ∧ Letter 'x' ∧
      Piece.reading? ⟨['7', 'x'], .error .nameAfterDigits⟩
        = some (.error "Invalid identifier: cannot start with a number")) ∧
    (Segmentation "1.5x".toList
        ([] ++ ⟨['1', '.', '5'], .token .number (some (.number (.ofDigits ['1'] ['5'])))⟩
          :: [⟨['x'], .token .identifier none⟩]) ∧
      Digits ['1'] ∧ Digits ['5'] ∧ Letter 'x' ∧
      ∃ q others kind, [⟨['x'], .token .identifier none⟩] = q :: others ∧
        Piece.outcome q = .token kind none ∧ kind.IsWord) := by
  have hdigits : ∀ c, Digit c → Digits [c] := fun c hc => ⟨List.cons_ne_nil c [], by simpa using hc⟩
  have hseven := hdigits '7' (by decide)
  have hone := hdigits '1' (by decide)
  have hfive := hdigits '5' (by decide)
  have hx : Letter 'x' := by decide
  have hword : Word ['x'] := ⟨⟨'x', rfl, hx⟩, by simpa using hx.wordChar⟩
  have htokens : (scan "1.5 or").tokens
      = [⟨.number, "1.5", some (.number (.ofDigits ['1'] ['5'])), ⟨1, 1⟩, ⟨0, 3⟩⟩,
        ⟨.keyword .orWord, "or", none, ⟨1, 5⟩, ⟨4, 6⟩⟩,
        ⟨.endOfFile, "", none, ⟨1, 7⟩, ⟨6, 6⟩⟩] := by decide +kernel
  have hfaulty : Segmentation "7x".toList ([] ++ ⟨['7', 'x'], .error .nameAfterDigits⟩ :: []) :=
    .cons (.digitsWord hseven hword stops_nil) .nil
  have hkeyword : ∀ k : Keyword, k.spelling.toList ≠ ['x'] := by
    intro k
    cases k <;> decide
  have hname : IsSegment ['x'] (.token .identifier none) [] := .identifier hword hkeyword stops_nil
  have hnumber : IsSegment (['1'] ++ '.' :: ['5']) _ ['x'] :=
    .number (.pointed hone hfive) (stops_cons.2 (by decide)) (stops_cons.2 (by decide))
      fun h => absurd h (by decide)
  have hsplit := Segmentation.cons hnumber (.cons hname .nil)
  refine ⟨⟨?_, (number_apart_from_name "1.5 or").1.2 fun t ht hkind _ => ?_⟩,
    ⟨hfaulty, hseven, hx,
      (number_apart_from_name "7x").2.1 _ _ _ _ _ _ hfaulty rfl hseven hx⟩,
    hsplit, hone, hfive, hx,
    ((number_apart_from_name "1.5x").2.2 [] _ _ _ _ _ _ hsplit rfl hone hfive hx).2⟩
  · rw [htokens]
    exact ⟨_, List.mem_cons_self, rfl, by decide⟩
  · -- the number of the text ends where the blank stands
    have hspan : t.span = ⟨0, 3⟩ := by
      rw [htokens] at ht
      simp only [List.mem_cons, List.not_mem_nil, or_false] at ht
      rcases ht with rfl | rfl | rfl
      · rfl
      · exact absurd hkind (by decide)
      · exact absurd hkind (by decide)
    rintro ⟨before, c, after, htext, hsize, hc⟩
    have hdivision : before ++ c :: after = ['1', '.', '5'] ++ [' ', 'o', 'r'] := htext.symm
    have hstop : byteSize before = byteSize ['1', '.', '5'] := by
      rw [hsize, hspan]
      rfl
    obtain ⟨rfl, -⟩ := List.cons.inj (append_inj_of_byteSize hdivision hstop).2
    exact absurd hc (by decide)

/-- Not every number is separated from the names behind it: a name touches the digits behind a
point. -/
theorem not_separated_of_fraction : ¬ NumbersSeparated "1.5abc" := by
  intro h
  have htokens : (scan "1.5abc").tokens[0]?
        = some ⟨.number, "1.5", some (.number (.ofDigits ['1'] ['5'])), ⟨1, 1⟩, ⟨0, 3⟩⟩ ∧
      (scan "1.5abc").tokens[1]? = some ⟨.identifier, "abc", none, ⟨1, 4⟩, ⟨3, 6⟩⟩ := by
    decide +kernel
  obtain ⟨h₀, ht⟩ := List.getElem?_eq_some_iff.1 htokens.1
  obtain ⟨h₁, hu⟩ := List.getElem?_eq_some_iff.1 htokens.2
  have hlt := List.pairwise_iff_getElem.1 h 0 1 h₀ h₁ (by decide)
  rw [ht, hu] at hlt
  exact absurd (hlt rfl (by decide)) (by decide)

end ScriptLexer

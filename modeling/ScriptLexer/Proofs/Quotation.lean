/-
# Quotation marks in pairs

In code a quotation mark opens a string, and the next one closes it.  A string hides what would be
a comment elsewhere, and a comment hides quotation marks.  No other segment takes up any, so that
those outside comments go into strings two by two, and if one is left over, it opens a string that
is never closed and takes up the rest of the text.

The step is `IsSegment.countQuotes_append`, about one segment, and `Segmentation.countQuotes_eq` is
the run, by induction on the segmentation.
-/
import ScriptLexer.Proofs.LexicalError
import ScriptLexer.Proofs.Region

namespace ScriptLexer

/-! ## Quotation marks outside comments -/

/-- The character is a quotation mark outside comments. -/
def IsQuote (x : Char × Region) : Prop := x.1 = '"' ∧ x.2 ≠ .comment

instance : DecidablePred IsQuote := fun _ => inferInstanceAs (Decidable (_ ∧ _))

/-- The number of quotation marks of the text outside comments. -/
def countQuotes (cs : List Char) : Nat := (regionsFrom .code cs).countP fun x => IsQuote x

lemma region_ne_code_of_quote (r : Region) (cs : List Char) :
    ∀ x ∈ regionsFrom r cs, x.1 = '"' → x.2 ≠ .code := by
  fun_induction regionsFrom r cs with
  | case1 => simp
  | case2 cs ih => simpa using ih
  | case3 cs ih => simpa using ih
  | case4 c cs _ hc ih => simpa [show c ≠ '"' from hc] using ih
  | case5 c cs ih => simpa using ih
  | case6 cs ih => simpa using ih
  | case7 c cs hc ih => simpa using ih

/-- In code a string begins with a quotation mark. -/
lemma eq_quote_of_head? (cs : List Char) :
    ∀ x ∈ (regionsFrom .code cs).head?, x.2 = .string → x.1 = '"' := by
  unfold regionsFrom
  split <;> simp_all

variable {text rest : List Char} {outcome : Outcome}

/-! ## Segments -/

/-- What the segment stands for is a string. -/
def Outcome.isString : Outcome → Bool
  | token .string _ => true
  | _ => false

/-- What the segment stands for is a string that is not closed. -/
def Outcome.isOpenString : Outcome → Bool
  | error .unterminatedString => true
  | _ => false

/-- A segment that begins with a quotation mark is a string, and ends with the next quotation mark,
or is left open. -/
lemma IsSegment.of_quote {cs : List Char} (h : IsSegment ('"' :: cs) outcome rest) :
    (∃ body, cs = body ++ ['"'] ∧ (∀ c ∈ body, c ≠ '"') ∧
        outcome = .token .string (some (.string (String.ofList body)))) ∨
      (∀ c ∈ cs, c ≠ '"') ∧ outcome = .error .unterminatedString ∧ rest = [] := by
  obtain ⟨c, cs', hcs, hfirst⟩ := h.exists_first
  obtain ⟨rfl, rfl⟩ := List.cons.inj hcs
  have hbody : ∀ c ∈ (cs ++ rest).takeWhile (· != '"'), c ≠ '"' :=
    forall_mem_takeWhile fun _ => bne_iff
  have hmark : Stops (· ≠ '"') ((cs ++ rest).dropWhile (· != '"')) :=
    stops_dropWhile fun _ => bne_iff
  have hread : Segment.ofQuotation (cs ++ rest) = ⟨'"' :: cs, outcome, rest⟩ := hfirst
  unfold Segment.ofQuotation at hread
  split at hread
  · obtain ⟨htext, houtcome, hrest⟩ := Segment.mk.inj hread
    rw [(List.cons.inj htext).2] at hbody
    exact Or.inr ⟨hbody, houtcome.symm, hrest.symm⟩
  · next mark rest' hdrop =>
    obtain ⟨htext, houtcome, -⟩ := Segment.mk.inj hread
    rw [hdrop, stops_cons, not_not] at hmark
    subst hmark
    exact Or.inl ⟨_, (List.cons.inj htext).2.symm, hbody, houtcome.symm⟩

lemma IsSegment.quote_mem (h : IsSegment text outcome rest)
    (hstring : outcome.isString = true ∨ outcome.isOpenString = true) : '"' ∈ text := by
  cases h with
  | string => exact List.mem_cons_self
  | unterminated => exact List.mem_cons_self
  | _ => simp [Outcome.isString, Outcome.isOpenString] at hstring

/-- What a segment takes up, it takes up from the quotation marks of the text. -/
lemma LiesIn.countQuotes_append {r : Region} (h : LiesIn r text outcome rest) :
    countQuotes (text ++ rest)
      = (if r = .comment then 0 else text.count '"') + countQuotes rest := by
  have htext : (text.map fun c => (c, r)).countP (fun x => IsQuote x)
      = if r = .comment then 0 else text.count '"' := by
    rw [List.countP_map]
    split
    · next hr => simp [IsQuote, hr, Function.comp_def]
    · next hr => simp [IsQuote, hr, Function.comp_def, List.count, BEq.beq]
  rw [countQuotes, h.regions, List.countP_append, htext]
  rfl

/-- A string takes up two quotation marks, a string that is not closed takes up one, and nothing
else takes up any. -/
lemma IsSegment.countQuotes_append (h : IsSegment text outcome rest) :
    countQuotes (text ++ rest)
      = 2 * outcome.isString.toNat + outcome.isOpenString.toNat + countQuotes rest := by
  obtain ⟨r, hregion⟩ := h.exists_liesIn
  rw [hregion.countQuotes_append]
  cases r with
  | comment =>
    obtain ⟨rfl, -, -⟩ := hregion.comment rfl
    simp [Outcome.isString, Outcome.isOpenString]
  | code =>
    have hnone : '"' ∉ text := by
      intro hmem
      refine region_ne_code_of_quote .code (text ++ rest) ('"', .code) ?_ rfl rfl
      rw [hregion.regions]
      exact List.mem_append_left _ (List.mem_map_of_mem hmem)
    have hstring : outcome.isString = false :=
      Bool.eq_false_iff.2 fun hstring => hnone (h.quote_mem (Or.inl hstring))
    have hopen : outcome.isOpenString = false :=
      Bool.eq_false_iff.2 fun hopen => hnone (h.quote_mem (Or.inr hopen))
    rw [List.count_eq_zero.2 hnone, hstring, hopen]
    simp
  | string =>
    obtain ⟨c, cs, rfl⟩ := List.exists_cons_of_ne_nil h.text_ne_nil
    obtain rfl : c = '"' := by
      refine eq_quote_of_head? (c :: cs ++ rest) (c, .string) ?_ rfl
      rw [hregion.regions]
      rfl
    rcases h.of_quote with ⟨body, rfl, hbody, rfl⟩ | ⟨hbody, rfl, rfl⟩
    · have hnone : '"' ∉ body := fun hmem => hbody _ hmem rfl
      simp [Outcome.isString, Outcome.isOpenString, List.count_append, List.count_eq_zero.2 hnone]
    · have hnone : '"' ∉ cs := fun hmem => hbody _ hmem rfl
      simp [Outcome.isString, Outcome.isOpenString, List.count_eq_zero.2 hnone]

/-! ## Whole texts -/

/-- Nothing follows a string that is not closed. -/
lemma IsSegment.rest_eq_nil (h : IsSegment text outcome rest)
    (hopen : outcome.isOpenString = true) : rest = [] := by
  cases h with
  | unterminated => rfl
  | _ => simp [Outcome.isOpenString] at hopen

/-- The strings among the pieces, and the string that is not closed if there is one, take up the
quotation marks of the text. -/
lemma Segmentation.countQuotes_eq {cs : List Char} {ps : List Piece} (h : Segmentation cs ps) :
    countQuotes cs = 2 * ps.countP (·.outcome.isString) + ps.countP (·.outcome.isOpenString) ∧
      ps.countP (·.outcome.isOpenString) ≤ 1 := by
  induction h with
  | nil => exact ⟨rfl, Nat.zero_le 1⟩
  | @cons text rest outcome ps hseg hps ih =>
    obtain ⟨hcount, hle⟩ := ih
    rw [hseg.countQuotes_append, hcount, List.countP_cons, List.countP_cons]
    by_cases hopen : outcome.isOpenString = true
    · -- nothing follows, so that there are no more pieces
      obtain rfl := hseg.rest_eq_nil hopen
      obtain rfl := hps.unique .nil
      cases outcome.isString <;> simp [hopen]
    · cases outcome.isString <;> simp [hopen] <;> omega

/-- Items are counted by their pieces. -/
lemma Piece.countP_itemsFrom {f : Item → Bool} {g : Piece → Bool}
    (h : ∀ p k, (p.item? k).any f = g p) (k : Cursor) (ps : List Piece) :
    (itemsFrom k ps).countP f = ps.countP g := by
  induction ps generalizing k with
  | nil => rfl
  | cons p ps ih =>
    rw [itemsFrom_cons, List.countP_append, ih, List.countP_cons, ← h p k]
    cases p.item? k <;> simp [Nat.add_comm]

lemma Segmentation.countP_tokens {source : String} {ps : List Piece}
    (h : Segmentation source.toList ps) :
    (scan source).tokens.countP (·.kind = .string) = ps.countP (·.outcome.isString) := by
  have hpiece : ∀ (p : Piece) k,
      (p.item? k).any (fun item => (item.token?.map (decide <| ·.kind = .string)).getD false)
        = p.outcome.isString := by
    rintro ⟨text, outcome⟩ k
    cases outcome with
    | token kind literal => cases kind <;> rfl
    | _ => rfl
  have hclose : [Token.endOfFile (Cursor.start.past source.toList)].countP (·.kind = .string) = 0 :=
    rfl
  rw [tokens_scan, List.countP_append, hclose, Nat.add_zero, body_scan, List.countP_filterMap,
    Scan.ofString, h.items_eq, ← Piece.countP_itemsFrom hpiece Cursor.start]

lemma Segmentation.countP_errors {source : String} {ps : List Piece}
    (h : Segmentation source.toList ps) :
    (scan source).errors.countP (·.message = "Unterminated String.")
      = ps.countP (·.outcome.isOpenString) := by
  have hpiece : ∀ (p : Piece) k,
      (p.item? k).any
          (fun item => (item.error?.map (decide <| ·.cause = .unterminatedString)).getD false)
        = p.outcome.isOpenString := by
    rintro ⟨text, outcome⟩ k
    cases outcome with
    | error cause => cases cause <;> rfl
    | _ => rfl
  have hwords : (scan source).errors.countP (·.message = "Unterminated String.")
      = (scan source).errors.countP (·.cause = .unterminatedString) := by
    refine List.countP_congr fun e he => ?_
    simpa using (LexicalError.reported_of_mem he).message_eq_iff
  rw [hwords, errors_scan, List.countP_filterMap, Scan.ofString, h.items_eq,
    ← Piece.countP_itemsFrom hpiece Cursor.start]

/-! ## The open string -/

/-- Behind pieces of a text the text is read from code on. -/
lemma Segmentation.exists_front {cs : List Char} {before after : List Piece}
    (h : Segmentation cs (before ++ after)) :
    ∃ front, front.map Prod.fst = Piece.textOf before ∧
      regionsFrom .code cs = front ++ regionsFrom .code (Piece.textOf after) := by
  induction before generalizing cs with
  | nil => exact ⟨[], rfl, by rw [← h.textOf_eq]; rfl⟩
  | cons p before ih =>
    cases h with
    | @cons text rest outcome _ hseg hrest =>
      obtain ⟨r, hregion⟩ := hseg.exists_liesIn
      obtain ⟨front, hfront, hregions⟩ := ih hrest
      refine ⟨text.map (·, r) ++ front, ?_, ?_⟩
      · rw [List.map_append, hfront, List.map_map, Piece.textOf_cons]
        exact congrArg (· ++ _) (List.map_id text)
      · rw [hregion.regions, hregions, List.append_assoc]

/-- No pieces are left behind a string that is not closed. -/
lemma Segmentation.eq_nil_of_isOpenString {cs : List Char} {before after : List Piece} {p : Piece}
    (h : Segmentation cs (before ++ p :: after)) (hopen : p.outcome.isOpenString = true) :
    after = [] := by
  have hafter : Segmentation (Piece.textOf after) after := by
    rw [List.append_cons] at h
    exact h.of_append
  rw [h.isSegment.rest_eq_nil hopen] at hafter
  exact hafter.unique .nil

/-- A string that is not closed begins with the last quotation mark of the text. -/
lemma IsSegment.exists_regions (h : IsSegment text outcome rest)
    (hopen : outcome.isOpenString = true) :
    ∃ x back, regionsFrom .code (text ++ rest) = x :: back ∧ IsQuote x ∧
      ∀ y ∈ back, ¬ IsQuote y := by
  cases h with
  | @unterminated body hbody =>
    rw [List.append_nil, regionsFrom_code_quote]
    refine ⟨_, _, rfl, ⟨rfl, Region.noConfusion⟩, fun y hy hquote => ?_⟩
    have hmem : y.1 ∈ (regionsFrom .string body).map Prod.fst := List.mem_map_of_mem hy
    rw [map_fst_regionsFrom] at hmem
    exact hbody _ hmem hquote.1
  | _ => simp [Outcome.isOpenString] at hopen

namespace Scan

variable {k k' : Scan} {e : LexicalError}

lemma rest_next_eq_nil (h : k.next = (some (.error e), k')) (he : e.cause = .unterminatedString) :
    k'.rest = [] := by
  fun_induction next k with
  | case1 => exact absurd (Prod.mk.inj h).1 (by simp)
  | case2 c cs cursor s item hitem =>
    obtain ⟨hsome, rfl⟩ := Prod.mk.inj h
    rw [hsome] at hitem
    have hopen : (Segment.first c cs).outcome.isOpenString = true := by
      rw [Segment.outcome_of_item?_eq_error hitem, he]
      rfl
    exact (Segment.valid_first c cs).rest_eq_nil hopen
  | case3 c cs cursor s hitem ih => exact ih h

/-- Once a string that is not closed has been delivered, the whole text has been read. -/
lemma rest_take_eq_nil_of_mem {n : Nat} (h : .error e ∈ (k.take n).1)
    (he : e.cause = .unterminatedString) : (k.take n).2.rest = [] := by
  induction n generalizing k with
  | zero => exact absurd h List.not_mem_nil
  | succ n ih =>
    rcases hnext : k.next with ⟨_ | item, k'⟩
    · rw [take_of_next_eq_none hnext] at h
      exact absurd h List.not_mem_nil
    · rw [take_of_next_eq_some hnext] at h ⊢
      rcases List.mem_cons.1 h with rfl | hlater
      · exact rest_take_eq_nil (rest_next_eq_nil hnext he) n
      · exact ih hlater

end Scan

/-! ## Whole texts -/

/-- **Strings pair up the quotation marks.**  Of the quotation marks outside comments every two
make a string token.  An open string is reported once if one of them is left over, and not at all
otherwise.  The report is then the last item, at the place of the last of these quotation marks, and
when it has been delivered the whole text has been read. -/
theorem strings_pair_quotes (source : String) :
    (scan source).tokens.countP (·.kind = .string) = countQuotes source.toList / 2 ∧
      (scan source).errors.countP (·.message = "Unterminated String.")
        = countQuotes source.toList % 2 ∧
      ∀ e ∈ (scan source).errors, e.message = "Unterminated String." →
        (Scan.ofString source).items.getLast? = some (.error e) ∧
        (∃ front x back, regionsFrom .code source.toList = front ++ x :: back ∧ IsQuote x ∧
          (∀ y ∈ back, ¬ IsQuote y) ∧ e.place = Place.behind (front.map Prod.fst)) ∧
        ∀ n, .error e ∈ ((Scan.ofString source).take n).1 →
          ((Scan.ofString source).take n).2.rest = [] := by
  obtain ⟨ps, hps⟩ := Segmentation.exists_pieces source.toList
  obtain ⟨hcount, hle⟩ := hps.countQuotes_eq
  rw [hps.countP_tokens, hps.countP_errors]
  refine ⟨by omega, by omega, fun e he hmessage => ?_⟩
  have hcause := (LexicalError.reported_of_mem he).message_eq_iff.1 hmessage
  rw [errors_scan, mem_filterMap_error?_iff] at he
  obtain ⟨before, p, after, hpieces, hitem⟩ := exists_piece_of_mem_items he
  have hopen : p.outcome.isOpenString = true := by
    have houtcome : p.outcome = .error e.cause := Segment.outcome_of_item?_eq_error hitem
    rw [houtcome, hcause]
    rfl
  obtain rfl := hpieces.eq_nil_of_isOpenString hopen
  refine ⟨?_, ?_, fun n hmem => Scan.rest_take_eq_nil_of_mem hmem hcause⟩
  · rw [Scan.ofString, hpieces.items_eq, Piece.itemsFrom_append, Cursor.past_start,
      Piece.itemsFrom_cons, hitem]
    simp
  · obtain ⟨front, hfront, hregions⟩ := hpieces.exists_front
    obtain ⟨x, back, hlast, hquote, hback⟩ := hpieces.isSegment.exists_regions hopen
    refine ⟨front, x, back, ?_, hquote, hback, ?_⟩
    · rw [hregions, Piece.textOf_cons, hlast]
    · rw [hfront]
      exact (Piece.standsAt_of_item? hitem).place

/-- Of four quotation marks one is in a comment: two of the others make a string, and the last opens
one on the second line. -/
theorem strings_pair_quotes_of_commented_mark :
    countQuotes "\"a\" // \"\n\"b".toList = 3 ∧
      (scan "\"a\" // \"\n\"b").tokens.countP (·.kind = .string) = 1 ∧
      ⟨.unterminatedString, ⟨2, 1⟩⟩ ∈ (scan "\"a\" // \"\n\"b").errors ∧
      (Scan.ofString "\"a\" // \"\n\"b").items.getLast?
        = some (.error ⟨.unterminatedString, ⟨2, 1⟩⟩) ∧
      ((Scan.ofString "\"a\" // \"\n\"b").take 2).2.rest = [] := by
  have hcount : countQuotes "\"a\" // \"\n\"b".toList = 3 := by decide +kernel
  have herrors : (scan "\"a\" // \"\n\"b").errors = [⟨.unterminatedString, ⟨2, 1⟩⟩] := by
    decide +kernel
  have hmem : ⟨.unterminatedString, ⟨2, 1⟩⟩ ∈ (scan "\"a\" // \"\n\"b").errors := by
    rw [herrors]
    exact List.mem_singleton_self _
  have htake : .error ⟨.unterminatedString, ⟨2, 1⟩⟩
      ∈ ((Scan.ofString "\"a\" // \"\n\"b").take 2).1 := by decide +kernel
  obtain ⟨hstrings, -, hopen⟩ := strings_pair_quotes "\"a\" // \"\n\"b"
  obtain ⟨hlast, -, hread⟩ := hopen _ hmem rfl
  rw [hcount] at hstrings
  exact ⟨hcount, hstrings, hmem, hlast, hread 2 htake⟩

end ScriptLexer

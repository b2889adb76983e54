/-
# Asking and finishing

A scan is asked for one item after the other, beyond the end of the text if need be, and finished
at any moment.  The answers are the items of the text and then nothing, again and again, and what
finishing hands back is what was not asked for.  So wherever the asking ends, no token and no error
is lost, given twice or put in another order, and the text is closed at the same place.

The main statement is `Scan.finish_calls_ofString`.  It rests on `Scan.calls_snd`, which says that
questions behind the end of the text leave the scan where it is.
-/
import ScriptLexer.Proofs.Position

namespace ScriptLexer

namespace Scan

/-- The answers to `n` questions for the next item, and the scan behind them.  A question at the
end of the text is answered by nothing. -/
def calls (k : Scan) : Nat → List (Option Item) × Scan
  | 0 => ([], k)
  | n + 1 =>
    let (answer, k') := k.next
    let (answers, k'') := k'.calls n
    (answer :: answers, k'')

@[simp] lemma calls_zero (k : Scan) : k.calls 0 = ([], k) := rfl

lemma calls_succ {k k' : Scan} {answer : Option Item} (h : k.next = (answer, k')) (n : Nat) :
    k.calls (n + 1) = (answer :: (k'.calls n).1, (k'.calls n).2) := by
  simp only [calls, h]

/-! ## The exhausted scan -/

lemma calls_of_rest_eq_nil {k : Scan} (h : k.rest = []) (n : Nat) :
    k.calls n = (List.replicate n none, k) := by
  induction n with
  | zero => rfl
  | succ n ih => rw [calls_succ (next_of_rest_eq_nil h), ih, List.replicate_succ]

/-! ## The answers -/

/-- The answers are the items in their order and, once there are no more, nothing. -/
lemma calls_fst (k : Scan) (n : Nat) :
    (k.calls n).1 = (k.items.take n).map some ++ List.replicate (n - k.items.length) none := by
  induction n generalizing k with
  | zero => simp
  | succ n ih =>
    rcases hnext : k.next with ⟨_ | item, k'⟩
    · have hrest : k'.rest = [] := rest_of_next_eq_none hnext
      rw [calls_succ hnext, calls_of_rest_eq_nil hrest, items_of_next_eq_none hnext]
      simp [List.replicate_succ]
    · rw [calls_succ hnext, ih k', items_of_next_eq_some hnext]
      simp

/-- Questions at the end of the text do not count: the scan stands where it stands when as many
items are taken. -/
lemma calls_snd (k : Scan) (n : Nat) : (k.calls n).2 = (k.take n).2 := by
  induction n generalizing k with
  | zero => rfl
  | succ n ih =>
    rcases hnext : k.next with ⟨_ | item, k'⟩
    · have hrest : k'.rest = [] := rest_of_next_eq_none hnext
      rw [calls_succ hnext, calls_of_rest_eq_nil hrest, take_of_next_eq_none hnext]
    · rw [calls_succ hnext, ih k', take_of_next_eq_some hnext]

/-! ## What is left -/

lemma items_calls (k : Scan) (n : Nat) : (k.calls n).2.items = k.items.drop n := by
  induction n generalizing k with
  | zero => rfl
  | succ n ih =>
    rcases hnext : k.next with ⟨_ | item, k'⟩
    · have hrest : k'.rest = [] := rest_of_next_eq_none hnext
      have hleft : k'.items = [] := items_of_next_eq_none (next_of_rest_eq_nil hrest)
      rw [calls_succ hnext, calls_of_rest_eq_nil hrest, items_of_next_eq_none hnext, hleft,
        List.drop_nil]
    · rw [calls_succ hnext, ih k', items_of_next_eq_some hnext, List.drop_succ_cons]

lemma past_rest_calls (k : Scan) (n : Nat) :
    (k.calls n).2.cursor.past (k.calls n).2.rest = k.cursor.past k.rest := by
  rw [calls_snd, past_rest_take]

/-- Finishing hands back what was not asked for, and closes the text where its end always was. -/
lemma finish_calls (k : Scan) (n : Nat) :
    (k.calls n).2.finish =
      ⟨(k.items.drop n).filterMap Item.token? ++ [.endOfFile (k.cursor.past k.rest)],
        (k.items.drop n).filterMap Item.error?⟩ := by
  rw [finish_eq, items_calls, past_rest_calls]

lemma kind_ne_endOfFile_of_mem_items {source : String} {t : Token}
    (h : .token t ∈ (ofString source).items) : t.kind ≠ .endOfFile := by
  obtain ⟨pieces, hpieces⟩ := Segmentation.exists_pieces source.toList
  rw [ofString, hpieces.items_eq] at h
  exact hpieces.kind_ne_endOfFile h

/-- **Asking and finishing share out the items.**  However many questions are asked, they are
answered by the first items of the text and then by nothing, and finishing hands back the tokens
and the errors among the other items, each in their order, and one token that closes the text.
This token is the same wherever the asking ends, no item is such a token, and a scan that is
finished at once is the scan of the whole text. -/
theorem finish_calls_ofString (source : String) (n : Nat) :
    ((ofString source).calls n).1
        = ((ofString source).items.take n).map some
          ++ List.replicate (n - (ofString source).items.length) none ∧
      ((ofString source).calls n).2.finish = {
        tokens := ((ofString source).items.drop n).filterMap Item.token? ++ [{
          kind := .endOfFile
          lexeme := ""
          literal := none
          place := Place.behind source.toList
          span := ⟨source.utf8ByteSize, source.utf8ByteSize⟩ }]
        errors := ((ofString source).items.drop n).filterMap Item.error? } ∧
      (∀ t, .token t ∈ (ofString source).items → t.kind ≠ .endOfFile) ∧
      ((ofString source).calls 0).2.finish = scan source := by
  have hend : Token.endOfFile ((ofString source).cursor.past (ofString source).rest) =
      ⟨.endOfFile, "", none, Place.behind source.toList,
        ⟨source.utf8ByteSize, source.utf8ByteSize⟩⟩ := by
    rw [ofString, Cursor.past_start, Token.endOfFile, Cursor.behind, byteSize_toList]
  refine ⟨calls_fst _ n, ?_, fun t ht => kind_ne_endOfFile_of_mem_items ht, rfl⟩
  rw [finish_calls, hend]

/-- Five questions about a text of three items, of which the second is an error: the last two are
answered by nothing, and what is left behind a blank and a comment is the end of the text. -/
theorem finish_calls_behind_end :
    .token ⟨.symbol .bang, "!", none, ⟨1, 4⟩, ⟨4, 5⟩⟩ ∈ (ofString "a é! // é").items ∧
      ((ofString "a é! // é").calls 5).1 = [
        some (.token ⟨.identifier, "a", none, ⟨1, 1⟩, ⟨0, 1⟩⟩),
        some (.error ⟨.unexpectedCharacter 'é', ⟨1, 3⟩⟩),
        some (.token ⟨.symbol .bang, "!", none, ⟨1, 4⟩, ⟨4, 5⟩⟩), none, none] ∧
      ((ofString "a é! // é").calls 5).2.finish
        = ⟨[⟨.endOfFile, "", none, ⟨1, 10⟩, ⟨11, 11⟩⟩], []⟩ ∧
      TokenKind.symbol .bang ≠ .endOfFile := by
  have hitems : (ofString "a é! // é").items = [
      .token ⟨.identifier, "a", none, ⟨1, 1⟩, ⟨0, 1⟩⟩,
      .error ⟨.unexpectedCharacter 'é', ⟨1, 3⟩⟩,
      .token ⟨.symbol .bang, "!", none, ⟨1, 4⟩, ⟨4, 5⟩⟩] := by decide +kernel
  have hend : Place.behind "a é! // é".toList = ⟨1, 10⟩ := by decide +kernel
  have hmem : .token ⟨.symbol .bang, "!", none, ⟨1, 4⟩, ⟨4, 5⟩⟩ ∈ (ofString "a é! // é").items := by
    rw [hitems]
    simp
  obtain ⟨hanswers, hfinish, hkind, -⟩ := finish_calls_ofString "a é! // é" 5
  refine ⟨hmem, ?_, ?_, hkind _ hmem⟩
  · rw [hanswers, hitems]
    rfl
  · rw [hfinish, hitems, hend]
    rfl

end Scan

end ScriptLexer

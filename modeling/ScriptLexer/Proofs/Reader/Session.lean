/-
# Asking a reader and finishing

A reader is asked for one item after the other and finished at any moment, as a scan is.  Collecting
what is left keeps it in step with its text (`endsIn_collect`), and so it hands back what the scan
hands back: what was not asked for, wherever the asking ends (`session_in_step`), and what a new
reader of the remaining text would find, counted on from there (`session_restart`).
-/
import ScriptLexer.Proofs.Reader.Safety
import ScriptLexer.Proofs.Restart

namespace ScriptLexer.Reader

variable {L : Lookahead (Nat × Char)} {source : String} {k : Scan} {s : State L}

lemma Follows.current (h : Follows source k s) : s.current = k.cursor := by
  obtain ⟨front, text, hat, hcursor⟩ := h
  exact hat.current.trans hcursor.symm

lemma endsIn_close (tokens : List Token) (errors : List LexicalError) (h : Follows source k s) :
    (close tokens errors s).EndsIn source fun r _ =>
      r = ⟨(Token.endOfFile k.cursor :: tokens).reverse, errors.reverse⟩ := by
  refine .look_bind (.record_bind (.pure ?_))
  rw [h.current]

/-- A reader that collects what is left hands back what the scan hands back.  The induction is that
of the scan. -/
lemma endsIn_collect (k : Scan) (tokens : List Token) (errors : List LexicalError) :
    ∀ {s : State L}, Follows source k s → (collect tokens errors s).EndsIn source fun r _ =>
      r = k.collect tokens errors := by
  fun_induction Scan.collect k tokens errors with
  | case1 k tokens errors k' hnext =>
    intro s h
    obtain ⟨hvalid, _, s', hend, rfl, hfollows⟩ := endsIn_next h
    rw [hnext] at hend hfollows
    rw [collect_of_none hend]
    exact (endsIn_close _ _ hfollows).after hvalid
  | case2 k tokens errors t k' hnext ih =>
    intro s h
    obtain ⟨hvalid, _, s', hend, rfl, hfollows⟩ := endsIn_next h
    rw [hnext] at hend hfollows
    rw [collect_of_token hend]
    exact (ih hfollows).after hvalid
  | case3 k tokens errors e k' hnext ih =>
    intro s h
    obtain ⟨hvalid, _, s', hend, rfl, hfollows⟩ := endsIn_next h
    rw [hnext] at hend hfollows
    rw [collect_of_error hend]
    exact (ih hfollows).after hvalid

lemma endsIn_finish (h : Follows source k s) :
    (finish s).EndsIn source fun r _ => r = k.finish :=
  endsIn_collect k [] [] h

/-! ## Sessions -/

/-- The answers to `n` questions for the next item, and what finishing hands back then. -/
def session (n : Nat) : Work L (List (Option Item) × ScanResult) := do
  let answers ← calls n
  let r ← finish
  pure (answers, r)

lemma endsIn_session (n : Nat) (h : Follows source k s) :
    (session n s).EndsIn source fun found _ =>
      found = ((k.calls n).1, (k.calls n).2.finish) := by
  refine (endsIn_calls n h).bind ?_
  rintro _ s₁ ⟨rfl, h⟩
  refine (endsIn_finish h).bind ?_
  rintro _ s₂ rfl
  exact .pure rfl

/-- What a run comes to, if it comes to an end. -/
def Run.result? {α : Type} (r : Run L α) : Option α := r.outcome.map Prod.fst

lemma Run.EndsIn.result? {α : Type} {r : Run L α} {a : α}
    (h : r.EndsIn source fun b _ => b = a) : r.result? = some a := by
  obtain ⟨-, _, s, hend, rfl⟩ := h
  rw [Run.result?, hend]
  rfl

/-- **A reader shares out the items.**  However many questions a reader is asked, they are answered
by the first items of the text and then by nothing, and finishing hands back the tokens and the
errors among the other items, and the token that closes the text.  All that is seen on the way is
as it should be. -/
theorem session_in_step (L : Lookahead (Nat × Char)) (source : String) (n : Nat) :
    (∀ m ∈ (session n (State.ofString L source)).moments, m.Valid source) ∧
      (session n (State.ofString L source)).result? = some (
        ((Scan.ofString source).items.take n).map some
          ++ List.replicate (n - (Scan.ofString source).items.length) none,
        { tokens := ((Scan.ofString source).items.drop n).filterMap Item.token?
            ++ [.endOfFile (Cursor.behind source.toList)]
          errors := ((Scan.ofString source).items.drop n).filterMap Item.error? }) := by
  have hsession := endsIn_session n (follows_ofString L source)
  refine ⟨hsession.valid, hsession.result?.trans ?_⟩
  rw [Scan.calls_fst, Scan.finish_calls, ← Cursor.past_start]
  rfl

/-- **A reader may be restarted anywhere.**  However many questions a reader was asked, the text
falls into a part that ends where it stands and a part `after`, and whatever it still delivers, by
further questions and by finishing then, is what a new reader of `after` delivers, with positions
counted on from the cursor.  What either of them has looked at makes no difference. -/
theorem session_restart (L L' : Lookahead (Nat × Char)) (source : String) (n : Nat) :
    ∃ (s : State L) (before after : String),
      (calls n (State.ofString L source)).outcome
        = some (((Scan.ofString source).calls n).1, s) ∧
      source = before ++ after ∧ before.utf8ByteSize = s.current.offset ∧
      ∀ m, ∃ answers r,
        (session m (State.ofString L' after)).result? = some (answers, r) ∧
        (session m s).result? = some (
          answers.map (Option.map (Relocation.countedFrom s.current).item),
          (Relocation.countedFrom s.current).result r) := by
  obtain ⟨-, _, s, hend, rfl, hfollows⟩ := endsIn_calls n (follows_ofString L source)
  have hreader := hfollows
  obtain ⟨front, text, hat, hcursor⟩ := hfollows
  have hcurrent : s.current = Cursor.behind (front ++ text) := hat.current
  rcases hscan : ((Scan.ofString source).calls n).2 with ⟨rest, cursor⟩
  rw [hscan] at hreader hat hcursor
  obtain rfl : cursor = Cursor.behind (front ++ text) := hcursor
  have hafter : Scan.ofString (String.ofList rest) = ⟨rest, Cursor.start⟩ := by
    rw [Scan.ofString, String.toList_ofList]
  refine ⟨s, String.ofList (front ++ text), String.ofList rest, hend, ?_, ?_, fun m => ?_⟩
  · rw [← String.ofList_append, ← hat.split, String.ofList_toList]
  · rw [hcurrent]
    rfl
  · have hnew := endsIn_session m (follows_ofString L' (String.ofList rest))
    have hold := endsIn_session m hreader
    rw [hafter] at hnew
    rw [Scan.calls_fst_behind, Scan.finish_calls_behind, ← hcurrent] at hold
    exact ⟨_, _, hnew.result?, hold.result?⟩

end ScriptLexer.Reader

/-
# Scanning from the middle of a text

Between two questions a scan remembers nothing but where it stands.  So what it still delivers is
what a scan of the remaining text delivers, with the positions counted on from there: spans by the
bytes before, lines by the lines before, and columns by the characters before, but these only on
the line in which the remaining text begins.

That places are counted on in this way is `Place.behind_append`, that a scan always stands at a
position of its text is `Scan.StandsIn.calls`, and both are proved step by step.
-/
import ScriptLexer.Proofs.Relocation
import ScriptLexer.Proofs.Scan.Calls
import Mathlib.Data.List.Induction

namespace ScriptLexer

/-! ## Counting on from a cursor -/

/-- How the positions of a text move when it begins at the cursor `o` instead of the start: they
are counted on from there, columns on the first line only. -/
def Relocation.countedFrom (o : Cursor) : Relocation where
  place p := ⟨p.line + (o.place.line - 1),
    if p.line = 1 then p.column + (o.place.column - 1) else p.column⟩
  span s := ⟨s.start + o.offset, s.stop + o.offset⟩

lemma Relocation.place_countedFrom_advance (o : Cursor) {p : Place} (hp : 1 ≤ p.line) (c : Char) :
    (countedFrom o).place (p.advance c) = ((countedFrom o).place p).advance c := by
  unfold Place.advance
  split
  · -- behind a line feed nothing is counted on
    have hline : p.line + 1 ≠ 1 := by omega
    simp only [countedFrom, if_neg hline, Place.mk.injEq, and_true]
    omega
  · simp only [countedFrom, Place.mk.injEq, true_and]
    split
    · omega
    · rfl

/-- Behind two texts the place is that behind the second, counted on from the place behind the
first. -/
lemma Place.behind_append (xs ys : List Char) :
    behind (xs ++ ys) = (Relocation.countedFrom (Cursor.behind xs)).place (behind ys) := by
  induction ys using List.reverseRecOn with
  | nil => simp [behind, Relocation.countedFrom, Cursor.behind]
  | append_singleton ys c ih =>
    have hline : 1 ≤ (behind ys).line := Nat.le_add_right 1 _
    rw [← List.append_assoc, behind_append_singleton, behind_append_singleton, ih,
      Relocation.place_countedFrom_advance _ hline]

/-- From behind any part of a text, positions are carried to those behind this part and a text put
in front of it. -/
lemma Relocation.carries_behind (xs ys : List Char) :
    (countedFrom (Cursor.behind xs)).Carries (Cursor.behind ys) (Cursor.behind (xs ++ ys)) where
  place_past cs := by
    rw [Cursor.past_behind, Cursor.past_behind, List.append_assoc]
    exact Place.behind_append xs (ys ++ cs)
  span_past us vs := by
    have hoffset : ∀ cs, ((Cursor.behind (xs ++ ys)).past cs).offset
        = ((Cursor.behind ys).past cs).offset + byteSize xs := by
      intro cs
      rw [Cursor.past_behind, Cursor.past_behind, List.append_assoc, Nat.add_comm]
      exact byteSize_append xs (ys ++ cs)
    rw [hoffset, hoffset]
    rfl

namespace Scan

/-! ## Where a scan stands -/

/-- The scan stands in the text `cs`: what is behind it and what is left make up the text, and its
cursor is that of the characters behind it. -/
def StandsIn (k : Scan) (cs : List Char) : Prop :=
  ∃ before, cs = before ++ k.rest ∧ k.cursor = Cursor.behind before

lemma standsIn_ofString (source : String) : (ofString source).StandsIn source.toList :=
  ⟨[], rfl, rfl⟩

/-- A segment moves a scan on in its text. -/
lemma StandsIn.behind {c : Char} {cs text : List Char} {cursor : Cursor}
    (h : StandsIn ⟨c :: cs, cursor⟩ text) :
    (Scan.behind ⟨c :: cs, cursor⟩ (Segment.first c cs)).StandsIn text := by
  obtain ⟨before, htext, hcursor⟩ := h
  obtain rfl : cursor = Cursor.behind before := hcursor
  refine ⟨before ++ (Segment.first c cs).text, ?_, Cursor.past_behind _ _⟩
  have hfirst := Segment.text_append_rest_first c cs
  rw [htext, ← hfirst, List.append_assoc]
  rfl

/-- Behind the next item, and at the end of the text, a scan stands in its text. -/
lemma StandsIn.next {k : Scan} {text : List Char} (h : k.StandsIn text) :
    k.next.2.StandsIn text := by
  fun_induction Scan.next k with
  | case1 => exact h
  | case2 c cs cursor s item hitem => exact h.behind
  | case3 c cs cursor s hitem ih => exact ih h.behind

lemma StandsIn.calls {k : Scan} {text : List Char} (h : k.StandsIn text) (n : Nat) :
    (k.calls n).2.StandsIn text := by
  induction n generalizing k with
  | zero => exact h
  | succ n ih => exact ih h.next

/-! ## What is still delivered -/

lemma items_behind (before rest : List Char) :
    items ⟨rest, Cursor.behind before⟩ =
      (items ⟨rest, Cursor.start⟩).map (Relocation.countedFrom (Cursor.behind before)).item := by
  obtain ⟨pieces, hpieces⟩ := Segmentation.exists_pieces rest
  have hcount := (Relocation.carries_behind before []).itemsFrom pieces
  rw [List.append_nil] at hcount
  rw [hpieces.items_eq, hpieces.items_eq, hcount, Cursor.start_eq_behind]

lemma calls_fst_behind (before rest : List Char) (m : Nat) :
    (calls ⟨rest, Cursor.behind before⟩ m).1 =
      (calls ⟨rest, Cursor.start⟩ m).1.map
        (Option.map (Relocation.countedFrom (Cursor.behind before)).item) := by
  rw [calls_fst, calls_fst, items_behind before rest]
  simp [Function.comp_def]

/-- What finishing hands back, sooner or later, is what finishing a scan of what is left hands back,
counted on. -/
lemma finish_calls_behind (before rest : List Char) (m : Nat) :
    (calls ⟨rest, Cursor.behind before⟩ m).2.finish =
      (Relocation.countedFrom (Cursor.behind before)).result
        (calls ⟨rest, Cursor.start⟩ m).2.finish := by
  rw [finish_calls, finish_calls, items_behind before rest, ← List.map_drop,
    Relocation.filterMap_token?_map_item, Relocation.filterMap_error?_map_item,
    Cursor.past_behind, Cursor.past_start, (Relocation.carries_behind before rest).endOfFile,
    Relocation.result, List.map_append, List.map_singleton]

/-- **A scan may be restarted anywhere.**  However many questions were asked, the text falls into a
part of as many bytes as the cursor says and a part `after`, and everything that is delivered from
there on, by further questions and by finishing then, is what a new scan of `after` delivers, with
spans, lines and, on its first line, columns counted on from the cursor. -/
theorem calls_restart (source : String) (n : Nat) :
    ∃ before after : String, source = before ++ after ∧
      before.utf8ByteSize = ((ofString source).calls n).2.cursor.offset ∧
      ∀ m, (((ofString source).calls n).2.calls m).1
          = ((ofString after).calls m).1.map
              (Option.map (Relocation.countedFrom ((ofString source).calls n).2.cursor).item) ∧
        (((ofString source).calls n).2.calls m).2.finish
          = (Relocation.countedFrom ((ofString source).calls n).2.cursor).result
              ((ofString after).calls m).2.finish := by
  have hstands := (standsIn_ofString source).calls n
  generalize ((ofString source).calls n).2 = k at hstands ⊢
  obtain ⟨rest, cursor⟩ := k
  obtain ⟨before, htext, hcursor⟩ := hstands
  obtain rfl : cursor = Cursor.behind before := hcursor
  have hsource : source = String.ofList before ++ String.ofList rest := by
    rw [← String.ofList_append, ← htext, String.ofList_toList]
  have hafter : ofString (String.ofList rest) = ⟨rest, Cursor.start⟩ := by
    rw [ofString, String.toList_ofList]
  refine ⟨String.ofList before, String.ofList rest, hsource, rfl, fun m => ?_⟩
  rw [hafter]
  exact ⟨calls_fst_behind before rest m, finish_calls_behind before rest m⟩

/-- Behind a string of two lines columns are counted on for `x`, and no longer for `y`. -/
example : ((ofString "\"é\n\" x\ny").calls 1).2.cursor = ⟨5, ⟨2, 2⟩⟩ ∧
    ((ofString "\"é\n\" x\ny").calls 1).2.finish.tokens.map (fun t => (t.lexeme, t.place, t.span))
      = [("x", ⟨2, 3⟩, ⟨6, 7⟩), ("y", ⟨3, 1⟩, ⟨8, 9⟩), ("", ⟨3, 2⟩, ⟨9, 9⟩)] ∧
    (scan " x\ny").tokens.map (fun t => (t.lexeme, t.place, t.span))
      = [("x", ⟨1, 2⟩, ⟨1, 2⟩), ("y", ⟨2, 1⟩, ⟨3, 4⟩), ("", ⟨2, 2⟩, ⟨4, 4⟩)] := by
  decide +kernel

end Scan

end ScriptLexer

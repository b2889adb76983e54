/-
# Texts that are made longer

A scan looks at no more of a text than it needs.  As long as a character is left behind the items
that were delivered, the end of the text had no part in them: whatever is put behind the text, they
are delivered again, and the scan stands at the same place behind them.

The step is `Scan.next_append`: one item and the scan behind it.  It follows from the rules, which
let a text be put behind what follows a segment unless nothing follows it.
-/
import ScriptLexer.Proofs.Segment.Context
import ScriptLexer.Proofs.Segment.First
import ScriptLexer.Proofs.Scan.Items

namespace ScriptLexer

/-- The first segment of a text stays when the text is made longer, if something follows it. -/
lemma Segment.first_append {c : Char} {cs : List Char} (h : (first c cs).rest ≠ [])
    (more : List Char) :
    first c (cs ++ more) =
      ⟨(first c cs).text, (first c cs).outcome, (first c cs).rest ++ more⟩ := by
  have hseg : IsSegment (first c cs).text (first c cs).outcome (first c cs).rest :=
    valid_first c cs
  refine first_eq_of_isSegment (hseg.append_of_ne_nil h more) ?_
  rw [← List.append_assoc, text_append_rest_first, List.cons_append]

namespace Scan

/-- The scan `k`, with the characters `more` put behind what is left of its text. -/
def append (k : Scan) (more : List Char) : Scan := ⟨k.rest ++ more, k.cursor⟩

lemma behind_append {c : Char} {cs : List Char} {cursor : Cursor}
    (h : (Segment.first c cs).rest ≠ []) (more : List Char) :
    behind ⟨c :: (cs ++ more), cursor⟩ (Segment.first c (cs ++ more)) =
      (behind ⟨c :: cs, cursor⟩ (Segment.first c cs)).append more := by
  rw [Segment.first_append h]
  rfl

lemma item?_first_append {c : Char} {cs : List Char} {cursor : Cursor}
    (h : (Segment.first c cs).rest ≠ []) (more : List Char) :
    (Segment.first c (cs ++ more)).item? cursor = (Segment.first c cs).item? cursor := by
  rw [Segment.first_append h]
  rfl

lemma rest_ne_nil_of_next {k k' : Scan} {item : Item} (h : k.next = (some item, k')) :
    k.rest ≠ [] := by
  have hlt := length_rest_next_lt h
  intro hnil
  simp [hnil] at hlt

/-- An item that leaves a character unread is delivered again when the text is made longer. -/
lemma next_append {k k' : Scan} {item : Item} (h : k.next = (some item, k')) (hrest : k'.rest ≠ [])
    (more : List Char) : (k.append more).next = (some item, k'.append more) := by
  -- the induction passes over the segments that stand for nothing
  fun_induction next k with
  | case1 => simp at h
  | case2 c cs cursor s found hitem =>
    obtain ⟨hfound, rfl⟩ := Prod.mk.inj h
    have hrest' : (Segment.first c cs).rest ≠ [] := hrest
    have hnext := next_of_item ((item?_first_append hrest' more).trans hitem)
    rw [behind_append hrest' more] at hnext
    rw [← hfound]
    exact hnext
  | case3 c cs cursor s hitem ih =>
    -- the item stands behind this segment, so that something follows it
    have hrest' : (Segment.first c cs).rest ≠ [] := rest_ne_nil_of_next h
    have hnext := next_of_nothing ((item?_first_append hrest' more).trans hitem)
    rw [behind_append hrest' more, ih h] at hnext
    exact hnext

/-- Items that leave a character unread are as many as were asked for, and are delivered again when
the text is made longer. -/
lemma take_append {k : Scan} {n : Nat} (h : (k.take n).2.rest ≠ []) (more : List Char) :
    (k.take n).1.length = n ∧
      (k.append more).take n = ((k.take n).1, (k.take n).2.append more) := by
  induction n generalizing k with
  | zero => exact ⟨rfl, rfl⟩
  | succ n ih =>
    rcases hnext : k.next with ⟨_ | item, k'⟩
    · -- without an item the scan would have read everything
      rw [take_of_next_eq_none hnext] at h
      exact absurd (rest_of_next_eq_none hnext) h
    · rw [take_of_next_eq_some hnext] at h ⊢
      have hrest : k'.rest ≠ [] := fun hnil => h (rest_take_eq_nil hnil n)
      obtain ⟨hlength, hagain⟩ := ih h
      refine ⟨by rw [List.length_cons, hlength], ?_⟩
      rw [take_of_next_eq_some (next_append hnext hrest more), hagain]

/-- **Items that leave a character unread are final.**  If a character of the text `s` is left
behind the first `n` items, then these are `n` items, and whatever text `t` is put behind `s`, the
first `n` items are the same in every respect and the scan stands at the same place behind them,
with what was left of `s` and with `t` before it.  One unread character is enough, although a
numeral is read with an eye to the two characters behind it: a numeral that has seen the end of the
text takes up the dot before it. -/
theorem take_ofString_append (s t : String) (n : Nat)
    (h : ((ofString s).take n).2.rest ≠ []) :
    ((ofString s).take n).1.length = n ∧
      ((ofString (s ++ t)).take n).1 = ((ofString s).take n).1 ∧
      ((ofString (s ++ t)).take n).2.cursor = ((ofString s).take n).2.cursor ∧
      ((ofString (s ++ t)).take n).2.rest = ((ofString s).take n).2.rest ++ t.toList := by
  have hstart : ofString (s ++ t) = (ofString s).append t.toList := by
    rw [ofString, String.toList_append]
    rfl
  obtain ⟨hlength, hagain⟩ := take_append h t.toList
  rw [hstart, hagain]
  exact ⟨hlength, rfl, rfl, rfl⟩

/-- Digits in front of a dot and a name are an error, and stay one whatever is put behind. -/
theorem take_ofString_append_dot :
    ((ofString "é 12.a").take 2).2.rest ≠ [] ∧
      ((ofString ("é 12.a" ++ "5\n\"")).take 2).1
        = [.error ⟨.unexpectedCharacter 'é', ⟨1, 1⟩⟩, .error ⟨.invalidNumber, ⟨1, 3⟩⟩] ∧
      ((ofString ("é 12.a" ++ "5\n\"")).take 2).2 = ⟨".a5\n\"".toList, ⟨5, ⟨1, 5⟩⟩⟩ := by
  have htake : (ofString "é 12.a").take 2
      = ([.error ⟨.unexpectedCharacter 'é', ⟨1, 1⟩⟩, .error ⟨.invalidNumber, ⟨1, 3⟩⟩],
        ⟨".a".toList, ⟨5, ⟨1, 5⟩⟩⟩) := by decide +kernel
  have h : ((ofString "é 12.a").take 2).2.rest ≠ [] := by
    rw [htake]
    decide
  obtain ⟨-, hitems, hcursor, hrest⟩ := take_ofString_append "é 12.a" "5\n\"" 2 h
  rw [htake] at hitems hcursor hrest
  exact ⟨h, hitems, congrArg₂ Scan.mk hrest hcursor⟩

end Scan

end ScriptLexer

/-
# The items of a scan

However a scan is driven, item by item or to its end at once, it delivers the same list of items.
The equations of this file say so: the items of a text are the item of its first segment and those
of the rest (`items_cons`), asking for a number of them takes them off the front of the list
(`take_fst`), and finishing a scan sorts them into tokens and errors (`finish_eq`).  The place
where the scan will end does not change on the way (`past_rest_take`).
-/
import ScriptLexer.Scan
import Mathlib.Tactic.Lemma

namespace ScriptLexer

namespace Item

/-- The token, if the item is one. -/
def token? : Item → Option Token
  | token t => some t
  | error _ => none

/-- The error, if the item is one. -/
def error? : Item → Option LexicalError
  | token _ => none
  | error e => some e

@[simp] lemma token?_token (t : Token) : (Item.token t).token? = some t := rfl

@[simp] lemma token?_error (e : LexicalError) : (Item.error e).token? = none := rfl

@[simp] lemma error?_token (t : Token) : (Item.token t).error? = none := rfl

@[simp] lemma error?_error (e : LexicalError) : (Item.error e).error? = some e := rfl

variable {φ : Item → Item}

/-- Where every item is changed, the tokens are changed as they are among the items. -/
lemma filterMap_token?_map {f : Token → Token} (h : ∀ item, (φ item).token? = item.token?.map f)
    (items : List Item) : (items.map φ).filterMap token? = (items.filterMap token?).map f := by
  rw [List.filterMap_map, List.map_filterMap]
  exact congrArg (List.filterMap · items) (funext h)

lemma filterMap_error?_map {f : LexicalError → LexicalError}
    (h : ∀ item, (φ item).error? = item.error?.map f) (items : List Item) :
    (items.map φ).filterMap error? = (items.filterMap error?).map f := by
  rw [List.filterMap_map, List.map_filterMap]
  exact congrArg (List.filterMap · items) (funext h)

end Item

lemma Segment.outcome_of_item?_eq_error {s : Segment} {k : Cursor} {e : LexicalError}
    (h : s.item? k = some (.error e)) : s.outcome = .error e.cause := by
  obtain ⟨text, outcome, rest⟩ := s
  cases outcome with
  | nothing => exact absurd h (by simp [item?])
  | token kind literal => exact absurd h (by simp [item?])
  | error cause => rw [← Item.error.inj (Option.some.inj h)]

namespace Scan

/-! ## One item -/

lemma next_nil (k : Cursor) : next ⟨[], k⟩ = (none, ⟨[], k⟩) := by
  rw [next]

lemma next_of_rest_eq_nil {k : Scan} (h : k.rest = []) : k.next = (none, k) := by
  obtain ⟨_, cursor⟩ := k
  subst h
  exact next_nil cursor

lemma next_of_item {c : Char} {cs : List Char} {k : Cursor} {item : Item}
    (h : (Segment.first c cs).item? k = some item) :
    next ⟨c :: cs, k⟩ = (some item, behind ⟨c :: cs, k⟩ (Segment.first c cs)) := by
  rw [next]
  simp only [h]

lemma next_of_nothing {c : Char} {cs : List Char} {k : Cursor}
    (h : (Segment.first c cs).item? k = none) :
    next ⟨c :: cs, k⟩ = (behind ⟨c :: cs, k⟩ (Segment.first c cs)).next := by
  rw [next]
  simp only [h]

/-- The end of the text stays where it is while the scan goes on. -/
lemma past_rest_behind (c : Char) (cs : List Char) (k : Cursor) :
    (behind ⟨c :: cs, k⟩ (Segment.first c cs)).cursor.past (Segment.first c cs).rest
      = k.past (c :: cs) := by
  rw [← Segment.text_append_rest_first c cs, Cursor.past_append]
  rfl

lemma past_rest_next (k : Scan) : k.next.2.cursor.past k.next.2.rest = k.cursor.past k.rest := by
  fun_induction next k with
  | case1 => rfl
  | case2 c cs cursor s item hitem => exact past_rest_behind c cs cursor
  | case3 c cs cursor s hitem ih => exact ih.trans (past_rest_behind c cs cursor)

lemma rest_of_next_eq_none {k k' : Scan} (h : k.next = (none, k')) : k'.rest = [] := by
  fun_induction next k with
  | case1 => exact congrArg rest (Prod.mk.inj h).2.symm
  | case2 c cs cursor s item hitem => exact absurd (Prod.mk.inj h).1 (by simp)
  | case3 c cs cursor s hitem ih => exact ih h

/-! ## All items -/

lemma items_of_next_eq_none {k k' : Scan} (h : k.next = (none, k')) : k.items = [] := by
  rw [items]
  split
  · rfl
  · next hsome => rw [h] at hsome; exact absurd (Prod.mk.inj hsome).1 (by simp)

lemma items_of_next_eq_some {k k' : Scan} {item : Item} (h : k.next = (some item, k')) :
    k.items = item :: k'.items := by
  rw [items]
  split
  · next hnone => rw [h] at hnone; exact absurd (Prod.mk.inj hnone).1 (by simp)
  · next hsome =>
    rw [h] at hsome
    obtain ⟨hitem, hk⟩ := Prod.mk.inj hsome
    rw [Option.some.inj hitem, hk]

lemma items_nil (k : Cursor) : items ⟨[], k⟩ = [] :=
  items_of_next_eq_none (next_nil k)

lemma items_cons (c : Char) (cs : List Char) (k : Cursor) :
    items ⟨c :: cs, k⟩ = ((Segment.first c cs).item? k).toList ++
      (behind ⟨c :: cs, k⟩ (Segment.first c cs)).items := by
  rcases hitem : (Segment.first c cs).item? k with _ | item
  · have hnext := next_of_nothing hitem
    rcases hbehind : (behind ⟨c :: cs, k⟩ (Segment.first c cs)).next with ⟨_ | item, k'⟩
    · rw [items_of_next_eq_none hbehind, items_of_next_eq_none (hnext.trans hbehind)]
      rfl
    · rw [items_of_next_eq_some hbehind, items_of_next_eq_some (hnext.trans hbehind)]
      rfl
  · rw [items_of_next_eq_some (next_of_item hitem)]
    rfl

/-! ## Some items -/

lemma take_of_next_eq_none {k k' : Scan} (h : k.next = (none, k')) (n : Nat) :
    k.take (n + 1) = ([], k') := by
  simp only [take, h]

lemma take_of_next_eq_some {k k' : Scan} {item : Item} (h : k.next = (some item, k')) (n : Nat) :
    k.take (n + 1) = (item :: (k'.take n).1, (k'.take n).2) := by
  simp only [take, h]

lemma take_fst (k : Scan) (n : Nat) : (k.take n).1 = k.items.take n := by
  induction n generalizing k with
  | zero => rfl
  | succ n ih =>
    rw [take]
    rcases hnext : k.next with ⟨_ | item, k'⟩
    · rw [items_of_next_eq_none hnext, List.take_nil]
    · rw [items_of_next_eq_some hnext, List.take_succ_cons, ← ih k']

lemma rest_take_eq_nil {k : Scan} (h : k.rest = []) (n : Nat) : (k.take n).2.rest = [] := by
  cases n with
  | zero => exact h
  | succ n =>
    rw [take_of_next_eq_none (next_of_rest_eq_nil h)]
    exact h

lemma past_rest_take (k : Scan) (n : Nat) :
    (k.take n).2.cursor.past (k.take n).2.rest = k.cursor.past k.rest := by
  induction n generalizing k with
  | zero => rfl
  | succ n ih =>
    have hstep := past_rest_next k
    rw [take]
    rcases hnext : k.next with ⟨_ | item, k'⟩
    · rw [hnext] at hstep
      exact hstep
    · rw [hnext] at hstep
      exact (ih k').trans hstep

/-! ## Finishing -/

/-- The tokens and the errors that are left are collected behind those found before, and the
tokens are closed by the end of the text. -/
lemma collect_eq (k : Scan) (tokens : List Token) (errors : List LexicalError) :
    k.collect tokens errors =
      ⟨tokens.reverse ++ k.items.filterMap Item.token? ++ [.endOfFile (k.cursor.past k.rest)],
        errors.reverse ++ k.items.filterMap Item.error?⟩ := by
  fun_induction collect k tokens errors with
  | case1 k tokens errors k' hnext =>
    have hend := past_rest_next k
    rw [hnext, rest_of_next_eq_none hnext] at hend
    rw [items_of_next_eq_none hnext, ← hend]
    simp
  | case2 k tokens errors t k' hnext ih =>
    have hend := past_rest_next k
    rw [hnext] at hend
    rw [ih, items_of_next_eq_some hnext, hend]
    simp [List.filterMap_cons]
  | case3 k tokens errors e k' hnext ih =>
    have hend := past_rest_next k
    rw [hnext] at hend
    rw [ih, items_of_next_eq_some hnext, hend]
    simp [List.filterMap_cons]

/-- Finishing a scan sorts what is left into tokens and errors. -/
lemma finish_eq (k : Scan) :
    k.finish = ⟨k.items.filterMap Item.token? ++ [.endOfFile (k.cursor.past k.rest)],
      k.items.filterMap Item.error?⟩ := by
  rw [finish, collect_eq]
  rfl

end Scan

end ScriptLexer

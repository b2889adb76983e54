/-
# The order of items

A scan only goes forward: every segment has a character, and the place behind a character comes
after the place of the character, whether or not a line ends there.  So the items of a text stand
one after the other, and the closing of the text stands behind them all.  Sorting the items into
tokens and errors therefore loses nothing: the places say in which order they came.

The step is `Place.before_advance`, about one character, and `Segmentation.pairwise_precedes` is the
run, by induction on the segmentation.  The invariant is the text before.
-/
import ScriptLexer.Proofs.Position
import Mathlib.Data.List.Nodup

namespace ScriptLexer

/-! ## The order of places -/

namespace Place

/-- The place `p` comes before the place `q`: it is on an earlier line, or on the same line and in
an earlier column. -/
def Before (p q : Place) : Prop := p.line < q.line ∨ p.line = q.line ∧ p.column < q.column

instance : DecidableRel Before := fun _ _ => inferInstanceAs (Decidable (_ ∨ _ ∧ _))

variable {p q r : Place}

lemma Before.trans (h : p.Before q) (h' : q.Before r) : p.Before r := by
  unfold Before at *
  omega

lemma Before.asymm (h : p.Before q) : ¬ q.Before p := by
  unfold Before at *
  omega

lemma Before.ne (h : p.Before q) : p ≠ q := by
  rintro rfl
  exact h.asymm h

lemma before_advance (p : Place) (c : Char) : p.Before (p.advance c) := by
  unfold advance
  split
  · exact Or.inl (Nat.lt_succ_self p.line)
  · exact Or.inr ⟨rfl, Nat.lt_succ_self p.column⟩

/-- A longer text ends at a later place. -/
lemma behind_before_append (before : List Char) {cs : List Char} (h : cs ≠ []) :
    (behind before).Before (behind (before ++ cs)) := by
  induction cs generalizing before with
  | nil => exact absurd rfl h
  | cons c cs ih =>
    have hstep : (behind before).Before (behind (before ++ [c])) := by
      rw [behind_append_singleton]
      exact before_advance _ c
    rw [List.append_cons]
    by_cases hcs : cs = []
    · simpa [hcs] using hstep
    · exact hstep.trans (ih (before ++ [c]) hcs)

end Place

/-! ## The order of items -/

/-- The item `x` precedes the item `y`. -/
structure Item.Precedes (x y : Item) : Prop where
  /-- It stands at an earlier place. -/
  place : x.place.Before y.place
  /-- If both are tokens, its bytes end before those of the other begin. -/
  span : ∀ t ∈ x.token?, ∀ u ∈ y.token?, t.span.stop ≤ u.span.start

/-- What is read from a piece precedes whatever begins behind the piece. -/
lemma Item.StandsAt.precedes {x y : Item} {before : List Char} {p : Piece}
    (hx : x.StandsAt before p) (hp : p.text ≠ []) (between : List Char)
    (hplace : y.place = Place.behind (before ++ p.text ++ between))
    (hspan : ∀ u ∈ y.token?, u.span.start = byteSize (before ++ p.text ++ between)) :
    x.Precedes y := by
  constructor
  · have hne : p.text ++ between ≠ [] := List.append_ne_nil_of_left_ne_nil hp between
    rw [hx.place, hplace, List.append_assoc]
    exact Place.behind_before_append before hne
  · intro t ht u hu
    obtain rfl : x = .token t := by
      cases x with
      | token s => exact congrArg Item.token (Option.some.inj ht)
      | error e => exact absurd ht (by simp)
    rw [hx.span t rfl, hspan u hu, byteSize_append _ between]
    exact Nat.le_add_right _ _

lemma Item.StandsAt.span_start {x : Item} {before : List Char} {p : Piece}
    (h : x.StandsAt before p) : ∀ t ∈ x.token?, t.span.start = byteSize before := by
  intro t ht
  cases x with
  | token s =>
    obtain rfl := Option.some.inj ht
    rw [h.span s rfl]
  | error e => exact absurd ht (by simp)

/-- The items of a text precede one another, and the last of them precedes the closing of the
text. -/
lemma Segmentation.pairwise_precedes {cs : List Char} {ps : List Piece} (h : Segmentation cs ps)
    (before : List Char) :
    (Piece.itemsFrom (Cursor.behind before) ps
      ++ [Item.token (.endOfFile (Cursor.behind (before ++ cs)))]).Pairwise Item.Precedes := by
  induction h generalizing before with
  | nil => exact List.pairwise_singleton _ _
  | @cons text rest outcome ps hseg hps ih =>
    have hrest := ih (before ++ text)
    rw [List.append_assoc] at hrest
    rw [Piece.itemsFrom_cons, Cursor.past_behind, List.append_assoc, List.pairwise_append]
    refine ⟨?_, hrest, ?_⟩
    · cases (⟨text, outcome⟩ : Piece).item? (Cursor.behind before) with
      | none => exact List.Pairwise.nil
      | some x => exact List.pairwise_singleton _ x
    · intro x hx y hy
      have hstands := Piece.standsAt_of_item? (Option.mem_toList.1 hx)
      rcases List.mem_append.1 hy with hy | hy
      · -- the item of a later piece stands behind the pieces between
        obtain ⟨between, q, after, rfl, hq⟩ := Piece.exists_of_mem_itemsFrom hy
        rw [Cursor.past_behind] at hq
        have hlater := Piece.standsAt_of_item? hq
        exact hstands.precedes hseg.text_ne_nil _ hlater.place hlater.span_start
      · -- and the closing of the text behind all that is left
        obtain rfl := List.mem_singleton.1 hy
        refine hstands.precedes hseg.text_ne_nil rest ?_ ?_
        · rw [List.append_assoc]
          rfl
        · intro u hu
          obtain rfl := Option.some.inj hu
          rw [List.append_assoc]
          rfl

/-! ## The number of items -/

lemma Segmentation.length_itemsFrom_le {cs : List Char} {ps : List Piece} (h : Segmentation cs ps)
    (k : Cursor) : (Piece.itemsFrom k ps).length ≤ cs.length := by
  induction h generalizing k with
  | nil => exact Nat.le_refl 0
  | @cons text rest outcome ps hseg _ ih =>
    have hitem : ((⟨text, outcome⟩ : Piece).item? k).toList.length ≤ 1 := by
      cases (⟨text, outcome⟩ : Piece).item? k <;> simp
    have htext := List.length_pos_iff.2 hseg.text_ne_nil
    have hrest := ih (k.past text)
    rw [Piece.itemsFrom_cons, List.length_append, List.length_append]
    dsimp only at hrest ⊢
    omega

/-- Every item is either a token or an error. -/
lemma Item.length_filterMap (items : List Item) :
    (items.filterMap token?).length + (items.filterMap error?).length = items.length := by
  induction items with
  | nil => rfl
  | cons item items ih => cases item <;> simp [List.filterMap_cons] <;> omega

/-! ## Tokens and errors in one list -/

section Merge

variable {α : Type} {le : α → α → Bool} {x y : α} {xs ys : List α}

/-- What goes before all of the second list is merged first. -/
lemma cons_merge_of_forall (h : ∀ y ∈ ys, le x y = true) :
    List.merge (x :: xs) ys le = x :: List.merge xs ys le := by
  cases ys with
  | nil => simp
  | cons y ys => exact List.cons_merge_cons_pos le xs ys (h y List.mem_cons_self)

/-- What nothing of the first list goes before is merged first. -/
lemma merge_cons_of_forall (h : ∀ x ∈ xs, ¬ le x y = true) :
    List.merge xs (y :: ys) le = y :: List.merge xs ys le := by
  cases xs with
  | nil => simp
  | cons x xs => exact List.cons_merge_cons_neg le xs ys (h x List.mem_cons_self)

end Merge

/-- The tokens and the errors of a result in one list, merged by their places. -/
def ScanResult.merged (r : ScanResult) : List Item :=
  List.merge (r.tokens.map .token) (r.errors.map .error) fun x y => decide (x.place.Before y.place)

/-- Items that stand in order are recovered from their tokens and their errors. -/
lemma ScanResult.merged_filterMap {items : List Item}
    (h : items.Pairwise fun x y => x.place.Before y.place) :
    merged ⟨items.filterMap Item.token?, items.filterMap Item.error?⟩ = items := by
  unfold merged
  induction items with
  | nil => simp
  | cons item items ih =>
    obtain ⟨hfirst, hrest⟩ := List.pairwise_cons.1 h
    cases item with
    | token t =>
      have hbefore : ∀ y ∈ (items.filterMap Item.error?).map Item.error,
          decide ((Item.token t).place.Before y.place) = true := by
        intro y hy
        obtain ⟨e, he, rfl⟩ := List.mem_map.1 hy
        simpa using hfirst _ (mem_filterMap_error?_iff.1 he)
      rw [List.filterMap_cons_some (Item.token?_token t),
        List.filterMap_cons_none (Item.error?_token t), List.map_cons,
        cons_merge_of_forall hbefore, ih hrest]
    | error e =>
      have hbehind : ∀ x ∈ (items.filterMap Item.token?).map Item.token,
          ¬ decide (x.place.Before (Item.error e).place) = true := by
        intro x hx
        obtain ⟨t, ht, rfl⟩ := List.mem_map.1 hx
        simpa using (hfirst _ (mem_filterMap_token?_iff.1 ht)).asymm
      rw [List.filterMap_cons_none (Item.token?_error e),
        List.filterMap_cons_some (Item.error?_error e), List.map_cons,
        merge_cons_of_forall hbehind, ih hrest]

/-! ## Whole texts -/

lemma scan_eq_filterMap (source : String) : scan source =
    ⟨((Scan.ofString source).items
        ++ [Item.token (.endOfFile (Cursor.behind source.toList))]).filterMap Item.token?,
      ((Scan.ofString source).items
        ++ [Item.token (.endOfFile (Cursor.behind source.toList))]).filterMap Item.error?⟩ := by
  rw [scan_eq, Cursor.past_start]
  simp

/-- **Items stand in order.**  The items of a text, and behind them the token that closes it, stand
at later and later places, so that no token stands where an error does.  Every other token has at
least one byte, and none shares a byte with a later one.  Merging the tokens and the errors of the
result by their places gives back the items in the order in which they were delivered.  There are no
more of them than characters in the text. -/
theorem scan_in_order (source : String) :
    ∃ close : Token, close.kind = .endOfFile ∧
      (scan source).tokens = (scan source).body ++ [close] ∧
      ((Scan.ofString source).items ++ [Item.token close]).Pairwise
        (fun x y => x.place.Before y.place) ∧
      (∀ t ∈ (scan source).body, t.span.start < t.span.stop) ∧
      (scan source).tokens.Pairwise (fun t u => t.span.stop ≤ u.span.start) ∧
      (∀ t ∈ (scan source).tokens, ∀ e ∈ (scan source).errors, t.place ≠ e.place) ∧
      (scan source).merged = (Scan.ofString source).items ++ [Item.token close] ∧
      (scan source).body.length + (scan source).errors.length ≤ source.length := by
  obtain ⟨ps, hps⟩ := Segmentation.exists_pieces source.toList
  have hitems : (Scan.ofString source).items = Piece.itemsFrom (Cursor.behind []) ps :=
    hps.items_eq _
  have hprecedes := hps.pairwise_precedes []
  rw [← hitems, List.nil_append] at hprecedes
  have hplaces := hprecedes.imp Item.Precedes.place
  refine ⟨.endOfFile (Cursor.behind source.toList), rfl, ?_, hplaces, ?_, ?_, ?_, ?_, ?_⟩
  · rw [tokens_scan, Cursor.past_start]
  · intro t ht
    rw [body_scan, mem_filterMap_token?_iff] at ht
    obtain ⟨before, p, after, hps', hitem⟩ := exists_piece_of_mem_items ht
    have hpos := byteSize_pos hps'.isSegment.text_ne_nil
    rw [(Piece.standsAt_of_item? hitem).span t rfl, byteSize_append]
    exact Nat.lt_add_of_pos_right hpos
  · rw [scan_eq_filterMap]
    exact hprecedes.filterMap Item.token? fun x y h t ht u hu => h.span t ht u hu
  · intro t ht e he hplace
    have hnodup := List.pairwise_map.2 (hplaces.imp fun h => h.ne)
    rw [scan_eq_filterMap] at ht he
    rw [mem_filterMap_token?_iff] at ht
    rw [mem_filterMap_error?_iff] at he
    exact Item.noConfusion (List.inj_on_of_nodup_map hnodup ht he hplace)
  · rw [scan_eq_filterMap]
    exact ScanResult.merged_filterMap hplaces
  · rw [body_scan, errors_scan, Item.length_filterMap, hitems, ← String.length_toList]
    exact hps.length_itemsFrom_le _

/-- Behind a string of two lines an error and a symbol stand on the second line: the error is put
back between the two tokens. -/
theorem scan_in_order_of_two_lines :
    (⟨.string, "\"\n\"", some (.string "\n"), ⟨1, 1⟩, ⟨0, 3⟩⟩ : Token) ∈ (scan "\"\n\"@-").body ∧
      (⟨0, 3⟩ : Span).start < (⟨0, 3⟩ : Span).stop ∧
      (scan "\"\n\"@-").merged = [
        .token ⟨.string, "\"\n\"", some (.string "\n"), ⟨1, 1⟩, ⟨0, 3⟩⟩,
        .error ⟨.unexpectedCharacter '@', ⟨2, 2⟩⟩,
        .token ⟨.symbol .minus, "-", none, ⟨2, 3⟩, ⟨4, 5⟩⟩,
        .token ⟨.endOfFile, "", none, ⟨2, 4⟩, ⟨5, 5⟩⟩] := by
  have hbody : (scan "\"\n\"@-").body = [
      ⟨.string, "\"\n\"", some (.string "\n"), ⟨1, 1⟩, ⟨0, 3⟩⟩,
      ⟨.symbol .minus, "-", none, ⟨2, 3⟩, ⟨4, 5⟩⟩] := by decide +kernel
  have hlast : (scan "\"\n\"@-").tokens.getLast?
      = some ⟨.endOfFile, "", none, ⟨2, 4⟩, ⟨5, 5⟩⟩ := by decide +kernel
  have hitems : (Scan.ofString "\"\n\"@-").items = [
      .token ⟨.string, "\"\n\"", some (.string "\n"), ⟨1, 1⟩, ⟨0, 3⟩⟩,
      .error ⟨.unexpectedCharacter '@', ⟨2, 2⟩⟩,
      .token ⟨.symbol .minus, "-", none, ⟨2, 3⟩, ⟨4, 5⟩⟩] := by decide +kernel
  obtain ⟨close, -, htokens, -, hspan, -, -, hmerged, -⟩ := scan_in_order "\"\n\"@-"
  have hmem : (⟨.string, "\"\n\"", some (.string "\n"), ⟨1, 1⟩, ⟨0, 3⟩⟩ : Token)
      ∈ (scan "\"\n\"@-").body := by
    rw [hbody]
    exact List.mem_cons_self
  rw [htokens, List.getLast?_concat] at hlast
  rw [hitems, Option.some.inj hlast] at hmerged
  exact ⟨hmem, hspan _ hmem, hmerged⟩

end ScriptLexer

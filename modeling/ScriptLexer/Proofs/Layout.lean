/-
# Layouts

Lexemes are laid out with separators between them: a blank, and any blanks and closed comments
behind it.  The blank ends the token before it and nothing else in a separator stands for anything,
so the lexemes are read back from the layout in their order.  Since the tokens of any scan are
lexemes, printing them with separators and scanning again loses nothing but their positions.
-/
import ScriptLexer.Proofs.Lexeme

namespace ScriptLexer

/-! ## Separators -/

/-- Blanks, and comments that are closed by a line feed. -/
inductive Gap : List Char → Prop
  | nil : Gap []
  | blank {c : Char} {g : List Char} : Blank c → Gap g → Gap (c :: g)
  | comment {body g : List Char} : (∀ c ∈ body, c ≠ '\n') → Gap g →
      Gap ('/' :: '/' :: (body ++ '\n' :: g))

/-- A separator is a blank with a gap behind it. -/
def IsSeparator (s : String) : Prop := ∃ c g, s.toList = c :: g ∧ Blank c ∧ Gap g

lemma Gap.items_eq {g : List Char} (hg : Gap g) (cs : List Char) (k : Cursor) :
    Scan.items ⟨g ++ cs, k⟩ = Scan.items ⟨cs, k.past g⟩ := by
  induction hg generalizing k with
  | nil => rfl
  | blank hc _ ih =>
    rw [List.cons_append, ← List.singleton_append, (IsSegment.blank hc).items_eq, ih]
    rfl
  | @comment body g hbody _ ih =>
    -- the comment ends before the line feed, which is then a blank
    have hstop : Stops (· ≠ '\n') ('\n' :: (g ++ cs)) := stops_cons.2 fun h => h rfl
    have hcomment := (IsSegment.comment hbody hstop).items_eq k
    have hblank : IsSegment ['\n'] .nothing (g ++ cs) := .blank (by decide)
    have hfeed := hblank.items_eq (k.past ('/' :: '/' :: body))
    rw [ih] at hfeed
    have hpast : k.past ('/' :: '/' :: (body ++ '\n' :: g))
        = ((k.past ('/' :: '/' :: body)).past ['\n']).past g := by
      rw [← Cursor.past_append, ← Cursor.past_append]
      rfl
    have htext : '/' :: '/' :: (body ++ '\n' :: g) ++ cs
        = '/' :: '/' :: body ++ '\n' :: (g ++ cs) := by simp
    rw [htext, hcomment, hpast]
    exact hfeed

lemma IsSeparator.items_eq {s : String} (hs : IsSeparator s) (cs : List Char) (k : Cursor) :
    Scan.items ⟨s.toList ++ cs, k⟩ = Scan.items ⟨cs, k.past s.toList⟩ := by
  obtain ⟨c, g, htext, hc, hg⟩ := hs
  rw [htext]
  exact (Gap.blank hc hg).items_eq cs k

/-! ## Layouts -/

/-- The lexemes `ws` with the separators `gs` between them. -/
def layout : List String → List String → String
  | [], _ => ""
  | w :: _, [] => w
  | w :: ws, g :: gs => w ++ g ++ layout ws gs

/-- The number of bytes in front of the `i`-th lexeme of a layout. -/
def layoutOffset (ws gs : List String) (i : Nat) : Nat :=
  (String.join (ws.take i)).utf8ByteSize + (String.join (gs.take i)).utf8ByteSize

/-- The tokens `ts` are the lexemes `ws`, laid out with the separators `gs` from the byte `start`
on. -/
structure ReadsBack (start : Nat) (ws gs : List String) (ts : List Token) : Prop where
  /-- There is one token for each lexeme. -/
  length : ts.length = ws.length
  /-- The token of a lexeme says what the lexeme says alone, at its own bytes. -/
  token : ∀ i w, ws[i]? = some w → ∃ t u : Token, ts[i]? = some t ∧ ReadsAs w u ∧
    t.kind = u.kind ∧ t.lexeme = w ∧ t.literal = u.literal ∧
    t.span = ⟨start + layoutOffset ws gs i, start + layoutOffset ws gs i + w.utf8ByteSize⟩

lemma layoutOffset_succ (w g : String) (ws gs : List String) (i : Nat) :
    layoutOffset (w :: ws) (g :: gs) (i + 1)
      = w.utf8ByteSize + g.utf8ByteSize + layoutOffset ws gs i := by
  rw [layoutOffset, layoutOffset, List.take_succ_cons, List.take_succ_cons, String.join_cons,
    String.join_cons, String.utf8ByteSize_append, String.utf8ByteSize_append]
  omega

namespace ReadsBack

variable {start : Nat} {w g : String} {ws gs : List String} {u : Token} {ts : List Token}

lemma nil (start : Nat) (gs : List String) : ReadsBack start [] gs [] :=
  ⟨rfl, fun _ _ hi => absurd hi (by simp)⟩

lemma singleton (hu : ReadsAs w u) (p : Place) :
    ReadsBack start [w] [] [⟨u.kind, w, u.literal, p, ⟨start, start + w.utf8ByteSize⟩⟩] := by
  refine ⟨rfl, fun i w' hi => ?_⟩
  cases i with
  | zero =>
    obtain rfl : w = w' := by simpa using hi
    exact ⟨_, u, rfl, hu, rfl, rfl, rfl, rfl⟩
  | succ i => exact absurd hi (by simp)

lemma cons (hu : ReadsAs w u) (p : Place)
    (h : ReadsBack (start + w.utf8ByteSize + g.utf8ByteSize) ws gs ts) :
    ReadsBack start (w :: ws) (g :: gs)
      (⟨u.kind, w, u.literal, p, ⟨start, start + w.utf8ByteSize⟩⟩ :: ts) := by
  refine ⟨?_, fun i w' hi => ?_⟩
  · rw [List.length_cons, List.length_cons, h.length]
  cases i with
  | zero =>
    obtain rfl : w = w' := by simpa using hi
    exact ⟨_, u, rfl, hu, rfl, rfl, rfl, rfl⟩
  | succ i =>
    rw [List.getElem?_cons_succ] at hi
    obtain ⟨t, v, ht, hv, hkind, hlexeme, hliteral, hspan⟩ := h.token i w' hi
    have hstart : start + w.utf8ByteSize + g.utf8ByteSize + layoutOffset ws gs i
        = start + layoutOffset (w :: ws) (g :: gs) (i + 1) := by
      rw [layoutOffset_succ]
      omega
    rw [hstart] at hspan
    exact ⟨t, v, ht, hv, hkind, hlexeme, hliteral, hspan⟩

/-- Two lists of tokens that are the same lexemes say the same. -/
lemma map_reading_eq {us : List Token} (h : ReadsBack start (us.map Token.lexeme) gs ts)
    (hus : ∀ u ∈ us, ∃ v, ReadsAs u.lexeme v ∧ v.kind = u.kind ∧ v.literal = u.literal) :
    ts.map Token.reading = us.map Token.reading := by
  refine List.ext_getElem? fun i => ?_
  rw [List.getElem?_map, List.getElem?_map]
  rcases hi : us[i]? with _ | u
  · have hle : ts.length ≤ i := by
      rw [h.length, List.length_map]
      exact List.getElem?_eq_none_iff.1 hi
    rw [List.getElem?_eq_none_iff.2 hle]
  · have hlex : (us.map Token.lexeme)[i]? = some u.lexeme := by
      rw [List.getElem?_map, hi]
      rfl
    obtain ⟨t, v, ht, hv, hkind, hlexeme, hliteral, -⟩ := h.token i _ hlex
    obtain ⟨v', hv', hkind', hliteral'⟩ := hus u (List.mem_of_getElem? hi)
    obtain rfl := hv.unique hv'
    have hreading : t.reading = u.reading := by
      rw [Token.reading, Token.reading, hkind, hlexeme, hliteral, hkind', hliteral']
    rw [ht, Option.map_some, Option.map_some, hreading]

end ReadsBack

/-! ## Reading a layout -/

/-- A lexeme whose token is not continued is delivered as this token. -/
lemma items_append_of_isSegment {w : String} {kind : TokenKind} {literal : Option Literal}
    {rest : List Char} (h : IsSegment w.toList (.token kind literal) rest) (k : Cursor) :
    Scan.items ⟨w.toList ++ rest, k⟩ =
      .token ⟨kind, w, literal, k.place, ⟨k.offset, k.offset + w.utf8ByteSize⟩⟩ ::
        Scan.items ⟨rest, k.past w.toList⟩ := by
  rw [h.items_eq, Piece.item?, Segment.item?, String.ofList_toList, Cursor.offset_past,
    byteSize_toList]
  rfl

/-- The items of a layout are the tokens of its lexemes. -/
lemma exists_items_layout {ws gs : List String} (hws : ∀ w ∈ ws, IsLexeme w)
    (hgs : ∀ g ∈ gs, IsSeparator g) (hlen : gs.length = ws.length - 1) (k : Cursor) :
    ∃ ts : List Token, Scan.items ⟨(layout ws gs).toList, k⟩ = ts.map .token ∧
      ReadsBack k.offset ws gs ts := by
  -- the induction follows the layout, and the cursor is arbitrary because it moves on
  fun_induction layout ws gs generalizing k with
  | case1 gs => exact ⟨[], Scan.items_nil k, .nil _ gs⟩
  | case2 w ws =>
    obtain rfl : ws = [] := List.length_eq_zero_iff.1 (by simpa using hlen.symm)
    obtain ⟨u, hu⟩ := hws w List.mem_cons_self
    have hitems := items_append_of_isSegment hu.isSegment k
    rw [List.append_nil, Scan.items_nil] at hitems
    exact ⟨[_], hitems, .singleton hu k.place⟩
  | case3 w ws g gs ih =>
    obtain ⟨u, hu⟩ := hws w List.mem_cons_self
    have hg := hgs g List.mem_cons_self
    have hlen' : gs.length = ws.length - 1 := by
      simp only [List.length_cons] at hlen
      omega
    obtain ⟨ts, hts, hback⟩ := ih (fun w hw => hws w (List.mem_cons_of_mem _ hw))
      (fun g hg => hgs g (List.mem_cons_of_mem _ hg)) hlen' ((k.past w.toList).past g.toList)
    have hseg : IsSegment w.toList (.token u.kind u.literal)
        (g.toList ++ (layout ws gs).toList) := by
      obtain ⟨c, cs, htext, hc, -⟩ := hg
      rw [htext]
      exact hu.isSegment.append_blank hc (fun h => Outcome.noConfusion h)
        (fun h => Outcome.noConfusion h) _
    have hitems := items_append_of_isSegment hseg k
    rw [hg.items_eq, hts] at hitems
    rw [Cursor.offset_past, Cursor.offset_past, byteSize_toList, byteSize_toList] at hback
    refine ⟨_ :: ts, ?_, .cons hu k.place hback⟩
    rw [String.toList_append, String.toList_append, List.append_assoc, hitems]
    rfl

lemma scan_layout {ws gs : List String} (hws : ∀ w ∈ ws, IsLexeme w)
    (hgs : ∀ g ∈ gs, IsSeparator g) (hlen : gs.length = ws.length - 1) :
    (scan (layout ws gs)).errors = [] ∧ ReadsBack 0 ws gs (scan (layout ws gs)).body := by
  obtain ⟨ts, hts, hback⟩ := exists_items_layout hws hgs hlen Cursor.start
  have herrors : (ts.map Item.token).filterMap Item.error? = [] := by
    rw [List.filterMap_eq_nil_iff]
    intro item hitem
    obtain ⟨t, -, rfl⟩ := List.mem_map.1 hitem
    rfl
  have htokens : (ts.map Item.token).filterMap Item.token? = ts := by
    rw [List.filterMap_map]
    exact List.filterMap_some
  rw [errors_scan, body_scan, Scan.ofString, hts, herrors, htokens]
  exact ⟨rfl, hback⟩

/-- **Lexemes are read back from every layout.**  Every token of a scan is a lexeme of the same
kind and value.  Lexemes that are laid out with separators are read without errors, one token for
each, with the kinds and the values that they have alone, each at its own bytes, and then the text
is closed.  So if the tokens of a scan are printed with separators and scanned again, they say the
same as before. -/
theorem lexemes_of_layout :
    (∀ source, ∀ t ∈ (scan source).tokens, t.kind ≠ .endOfFile →
      ∃ u, ReadsAs t.lexeme u ∧ u.kind = t.kind ∧ u.literal = t.literal) ∧
    (∀ ws gs, (∀ w ∈ ws, IsLexeme w) → (∀ g ∈ gs, IsSeparator g) → gs.length = ws.length - 1 →
      (scan (layout ws gs)).errors = [] ∧
      ∃ ts close, (scan (layout ws gs)).tokens = ts ++ [close] ∧ close.kind = .endOfFile ∧
        ReadsBack 0 ws gs ts) ∧
    (∀ source gs, (∀ g ∈ gs, IsSeparator g) → gs.length = (scan source).body.length - 1 →
      (scan (layout ((scan source).body.map Token.lexeme) gs)).errors = [] ∧
      (scan (layout ((scan source).body.map Token.lexeme) gs)).body.map Token.reading
        = (scan source).body.map Token.reading) := by
  refine ⟨?_, ?_, ?_⟩
  · intro source t ht hkind
    exact readsAs_of_mem_body (List.mem_filter.2 ⟨ht, by simpa using hkind⟩)
  · intro ws gs hws hgs hlen
    obtain ⟨herrors, hback⟩ := scan_layout hws hgs hlen
    exact ⟨herrors, _, _, tokens_scan _, rfl, hback⟩
  · intro source gs hgs hlen
    have hws : ∀ w ∈ (scan source).body.map Token.lexeme, IsLexeme w := by
      intro w hw
      obtain ⟨t, ht, rfl⟩ := List.mem_map.1 hw
      obtain ⟨u, hu, -⟩ := readsAs_of_mem_body ht
      exact ⟨u, hu⟩
    obtain ⟨herrors, hback⟩ := scan_layout hws hgs (by rwa [List.length_map])
    exact ⟨herrors, hback.map_reading_eq fun t ht => readsAs_of_mem_body ht⟩

/-- A symbol cut out between two numerals, of which the first is wrong, is a lexeme; a part of it
and a string that looks like a comment are read back behind a comment; and the tokens of a wrong
text are read back from a layout. -/
theorem lexemes_of_layout_with_comment :
    (∃ u, ReadsAs "!=" u ∧ u.kind = .symbol .bangEqual ∧ u.literal = none) ∧
    ((scan (layout ["!", "\"//\""] ["\t// !\n"])).errors = [] ∧
      ∃ ts close, (scan (layout ["!", "\"//\""] ["\t// !\n"])).tokens = ts ++ [close] ∧
        close.kind = .endOfFile ∧ ReadsBack 0 ["!", "\"//\""] ["\t// !\n"] ts) ∧
    ((scan (layout ((scan "12.!=x@").body.map Token.lexeme) ["\n"])).errors = [] ∧
      (scan (layout ((scan "12.!=x@").body.map Token.lexeme) ["\n"])).body.map Token.reading
        = (scan "12.!=x@").body.map Token.reading) := by
  have hbang : IsLexeme "!" :=
    ⟨⟨.symbol .bang, "!", none, ⟨1, 1⟩, ⟨0, 1⟩⟩, by decide +kernel, by decide +kernel, rfl⟩
  have hstring : IsLexeme "\"//\"" :=
    ⟨⟨.string, "\"//\"", some (.string "//"), ⟨1, 1⟩, ⟨0, 4⟩⟩, by decide +kernel,
      by decide +kernel, rfl⟩
  have hcomment : Gap ('/' :: '/' :: ([' ', '!'] ++ '\n' :: [])) := .comment (by simp) .nil
  have hseparator : IsSeparator "\t// !\n" := ⟨'\t', _, rfl, by decide, hcomment⟩
  have hfeed : IsSeparator "\n" := ⟨'\n', [], rfl, by decide, .nil⟩
  have hlen : ["\n"].length = (scan "12.!=x@").body.length - 1 := by decide +kernel
  have hfirst : (scan "12.!=3").tokens[0]?
      = some ⟨.symbol .bangEqual, "!=", none, ⟨1, 4⟩, ⟨3, 5⟩⟩ := by decide +kernel
  refine ⟨lexemes_of_layout.1 "12.!=3" _ (List.mem_of_getElem? hfirst) (by decide), ?_, ?_⟩
  · refine lexemes_of_layout.2.1 _ _ ?_ ?_ rfl
    · intro w hw
      simp only [List.mem_cons, List.not_mem_nil, or_false] at hw
      rcases hw with rfl | rfl
      · exact hbang
      · exact hstring
    · intro g hg
      rwa [List.mem_singleton.1 hg]
  · refine lexemes_of_layout.2.2 _ _ ?_ hlen
    intro g hg
    rwa [List.mem_singleton.1 hg]

end ScriptLexer

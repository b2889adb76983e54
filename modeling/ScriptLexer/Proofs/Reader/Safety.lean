/-
# Readers keep in step with the text

Wherever a reader stands, its text falls into three parts (`State.At`): what is read, what is taken
of the present segment, and what is ahead.  Both cursors are those of the text, and so every state
is valid (`State.At.valid`), and a slice always falls between characters.  Each movement keeps the
three parts in order, and each part of the program reads the segment that begins where the reader
stands: there is one lemma for each of them, which cites those of the parts it is made of.

So a reader answers as a scan of the text does (`endsIn_next`), and never stops on the way.  The
main statement is `calls_in_step`, for any number of questions.
-/
import ScriptLexer.Proofs.Binary64.Parse
import ScriptLexer.Proofs.Reader.Validity
import ScriptLexer.Proofs.Scan.Calls
import ScriptLexer.Reader.Program
import Mathlib.Data.List.Induction

namespace ScriptLexer

/-- Each character adds one to the line or to the column, and a line feed takes away from the
column. -/
lemma Place.line_add_column_le (before : List Char) :
    (Place.behind before).line + (Place.behind before).column ≤ before.length + 2 := by
  induction before using List.reverseRecOn with
  | nil => exact le_rfl
  | append_singleton before c ih =>
    have hcolumn : 1 ≤ (Place.behind before).column := Nat.le_add_right 1 _
    rw [Place.behind_append_singleton, Place.advance, List.length_append, List.length_singleton]
    split <;> dsimp only <;> omega

namespace Reader

variable {L : Lookahead (Nat × Char)} {source : String} {front text rest : List Char} {s : State L}

namespace State

/-- The reader has read `front`, has taken `text` of the present segment, and has `rest` ahead. -/
structure At (s : State L) (source : String) (front text rest : List Char) : Prop where
  /-- The reader is in the text with which it began. -/
  source_eq : s.source = source
  /-- The three parts make up the text. -/
  split : source.toList = front ++ text ++ rest
  /-- The segment starts behind the first part. -/
  start : s.start = Cursor.behind front
  /-- The cursor stands behind the second part. -/
  current : s.current = Cursor.behind (front ++ text)
  /-- The characters of the third part are ahead, each with its offset in the text. -/
  ahead : s.ahead = charIndices (byteSize (front ++ text)) rest

lemma at_ofString (L : Lookahead (Nat × Char)) (source : String) :
    (ofString L source).At source [] [] source.toList where
  source_eq := rfl
  split := rfl
  start := rfl
  current := rfl
  ahead := L.ahead_ofList _

namespace At

/-- A reader that is in step with the text is in a valid state. -/
lemma valid (h : s.At source front text rest) : s.Valid source := by
  have hstart : s.start.offset = byteSize front := congrArg Cursor.offset h.start
  have hcurrent : s.current.offset = byteSize (front ++ text) := congrArg Cursor.offset h.current
  have hslice := isSliceOf_of_split h.split
  have hplace : s.current.place.line + s.current.place.column ≤ (front ++ text).length + 2 := by
    rw [h.current]
    exact Place.line_add_column_le _
  refine ⟨h.source_eq, ?_, ?_, ?_, ?_, ?_, ⟨(front ++ text).length, ?_, ?_, ?_, hplace⟩, ?_⟩
  · rw [hstart, hcurrent]
    exact hslice.start_le
  · rw [hcurrent]
    exact hslice.stop_le
  · rw [hstart]
    exact hslice.start_boundary
  · rw [hcurrent]
    exact hslice.stop_boundary
  · rw [hcurrent, h.ahead]
    cases rest with
    | nil =>
      rw [← byteSize_toList, h.split, List.append_nil]
      rfl
    | cons c cs => rfl
  · rw [h.split]
    exact (List.prefix_append (front ++ text) rest).length_le
  · rw [h.ahead, h.split, drop_charIndices, Nat.zero_add]
  · rw [hcurrent, h.split, List.take_left]
  · intro w hw hsize
    have hlength := length_le_byteSize (front ++ text)
    have hle := byteSize_le_of_split h.split
    have htwo : 2 ^ 1 ≤ 2 ^ (w - 1) := Nat.pow_le_pow_right (by decide) (by omega)
    have hdouble : 2 ^ w = 2 * 2 ^ (w - 1) := by
      rw [← Nat.pow_succ', Nat.succ_eq_add_one, Nat.sub_add_cancel (by omega)]
    omega

/-! ## Movements -/

/-- A new segment starts: what was taken is read. -/
lemma mark (h : s.At source front text rest) : s.mark.At source (front ++ text) [] rest where
  source_eq := h.source_eq
  split := by rw [List.append_nil, h.split]
  start := h.current
  current := by rw [List.append_nil, ← h.current]; rfl
  ahead := by rw [List.append_nil, ← h.ahead]; rfl

/-- Where only the characters ahead are handled, the reader stays where it is. -/
lemma of_pending (h : s.At source front text rest) {pending : L.State}
    (hpending : L.ahead pending = s.ahead) :
    State.At { s with pending } source front text rest :=
  ⟨h.source_eq, h.split, h.start, h.current, hpending.trans h.ahead⟩

lemma map_snd_ahead (h : s.At source front text rest) : s.ahead.map Prod.snd = rest := by
  rw [h.ahead, map_snd_charIndices]

lemma peek (h : s.At source front text rest) :
    s.peek.1 = rest.head? ∧ s.peek.2.At source front text rest := by
  refine ⟨?_, h.of_pending s.ahead_peek⟩
  rw [peek_fst, ← List.head?_map, h.map_snd_ahead]

lemma peekSecond (h : s.At source front text rest) :
    s.peekSecond.1 = rest[1]? ∧ s.peekSecond.2.At source front text rest := by
  refine ⟨?_, h.of_pending s.ahead_peekSecond⟩
  rw [peekSecond_fst, ← List.getElem?_map, h.map_snd_ahead]

lemma advance_nil (h : s.At source front text []) :
    s.advance.1 = none ∧ s.advance.2.At source front text [] := by
  have hahead : s.ahead = [] := h.ahead
  have hnext : L.ahead (L.next s.pending).2 = s.ahead := by
    rw [hahead]
    exact (L.ahead_next s.pending).trans (congrArg List.tail hahead)
  rw [advance_of_nil hahead]
  exact ⟨rfl, h.of_pending hnext⟩

lemma advance_cons {c : Char} (h : s.At source front text (c :: rest)) :
    s.advance.1 = some c ∧ s.advance.2.At source front (text ++ [c]) rest := by
  have hsize : byteSize (front ++ (text ++ [c])) = byteSize (front ++ text) + c.utf8Size := by
    rw [← List.append_assoc, byteSize_append _ [c], byteSize_singleton]
  have hbehind : Cursor.behind (front ++ (text ++ [c]))
      = ⟨byteSize (front ++ text) + c.utf8Size, s.current.place.advance c⟩ := by
    rw [← List.append_assoc, Cursor.behind_append_singleton, h.current]
    rfl
  have hahead := h.ahead
  rw [charIndices_cons] at hahead
  have htail := s.ahead_advance
  rw [advance_of_cons hahead] at htail ⊢
  refine ⟨rfl, h.source_eq, ?_, h.start, hbehind.symm, ?_⟩
  · rw [h.split, List.append_assoc, List.append_assoc, List.append_assoc, List.singleton_append]
  · rw [htail, hahead, hsize]
    rfl

end At

end State

/-! ## Characters -/

section Characters

variable {c : Char} {p : Char → Bool}

lemma endsIn_mark (h : s.At source front text rest) :
    (mark s).EndsIn source fun _ s' => s'.At source (front ++ text) [] rest :=
  .move h.mark.valid h.mark

lemma endsIn_peek (h : s.At source front text rest) :
    (peek s).EndsIn source fun a s' => a = rest.head? ∧ s'.At source front text rest :=
  .move h.peek.2.valid h.peek

lemma endsIn_peekSecond (h : s.At source front text rest) :
    (peekSecond s).EndsIn source fun a s' => a = rest[1]? ∧ s'.At source front text rest :=
  .move h.peekSecond.2.valid h.peekSecond

lemma endsIn_advance_nil (h : s.At source front text []) :
    (advance s).EndsIn source fun a s' => a = none ∧ s'.At source front text [] :=
  .move h.advance_nil.2.valid h.advance_nil

lemma endsIn_advance_cons (h : s.At source front text (c :: rest)) :
    (advance s).EndsIn source fun a s' => a = some c ∧ s'.At source front (text ++ [c]) rest :=
  .move h.advance_cons.2.valid h.advance_cons

lemma endsIn_nextIs_cons (h : s.At source front text (c :: rest)) :
    (nextIs c s).EndsIn source fun b s' => b = true ∧ s'.At source front (text ++ [c]) rest := by
  refine (endsIn_peek h).bind ?_
  rintro _ s₁ ⟨rfl, h⟩
  dsimp only [List.head?_cons]
  rw [if_pos rfl]
  refine (endsIn_advance_cons h).bind ?_
  rintro _ s₂ ⟨-, h⟩
  exact .pure ⟨rfl, h⟩

lemma endsIn_nextIs_of_stops (h : s.At source front text rest) (hc : Stops (· = c) rest) :
    (nextIs c s).EndsIn source fun b s' => b = false ∧ s'.At source front text rest := by
  refine (endsIn_peek h).bind ?_
  rintro _ s₁ ⟨rfl, h⟩
  cases rest with
  | nil => exact .pure ⟨rfl, h⟩
  | cons d rest =>
    dsimp only [List.head?_cons]
    rw [if_neg (stops_cons.1 hc)]
    exact .pure ⟨rfl, h⟩

/-- A run of characters is taken as long as it is.  The induction is on the characters ahead, which
the loop takes one at a time. -/
lemma endsIn_advanceWhile (h : s.At source front text rest) :
    (advanceWhile p s).EndsIn source fun _ s' =>
      s'.At source front (text ++ rest.takeWhile p) (rest.dropWhile p) := by
  show (runWhile p s).EndsIn source _
  induction rest generalizing s text with
  | nil =>
    obtain ⟨hpeek, hat⟩ := h.peek
    rw [runWhile_of_none hpeek, List.takeWhile_nil, List.append_nil]
    exact .reached hat.valid hat
  | cons c rest ih =>
    obtain ⟨hpeek, hat⟩ := h.peek
    by_cases hc : p c = true
    · obtain ⟨-, hnext⟩ := hat.advance_cons
      rw [runWhile_of_pos hpeek hc, List.takeWhile_cons_of_pos hc,
        List.dropWhile_cons_of_pos hc, List.append_cons]
      refine (ih hnext).after fun m hm => ?_
      rw [List.mem_cons, List.mem_singleton] at hm
      rcases hm with rfl | rfl
      · exact hat.valid
      · exact hnext.valid
    · rw [runWhile_of_neg hpeek hc, List.takeWhile_cons_of_neg hc,
        List.dropWhile_cons_of_neg hc, List.append_nil]
      exact .reached hat.valid hat

/-- Where a run and what ends it are ahead, the run is taken. -/
lemma endsIn_advanceWhile_run {run : List Char}
    (hrun : (run ++ rest).takeWhile p = run ∧ (run ++ rest).dropWhile p = rest)
    (h : s.At source front text (run ++ rest)) :
    (advanceWhile p s).EndsIn source fun _ s' => s'.At source front (text ++ run) rest := by
  have hend := endsIn_advanceWhile (p := p) h
  rwa [hrun.1, hrun.2] at hend

/-- Where the first character of a run is taken, all of it is. -/
lemma endsIn_advanceWhile_behind (hc : p c = true) (h : s.At source front [c] rest) :
    (advanceWhile p s).EndsIn source fun _ s' =>
      s'.At source front ((c :: rest).takeWhile p) ((c :: rest).dropWhile p) := by
  rw [List.takeWhile_cons_of_pos hc, List.dropWhile_cons_of_pos hc]
  exact endsIn_advanceWhile h

end Characters

/-! ## What is in view -/

section View

variable {c : Char} {p : Char → Prop} {q : Char → Bool}

/-- The next character tells whether a run goes on. -/
lemma any_head?_iff (hq : ∀ c, q c = true ↔ p c) :
    rest.head?.any q = true ↔ ¬ Stops p rest := by
  cases rest with
  | nil => simp
  | cons d cs => rw [stops_cons, List.head?_cons, Option.any_some, hq, not_not]

lemma head?_eq_iff : rest.head? = some c ↔ ¬ Stops (· = c) rest := by
  cases rest with
  | nil => simp
  | cons d cs => rw [stops_cons, List.head?_cons, Option.some_inj, not_not]

lemma not_any_head? (hq : ∀ c, q c = true ↔ p c) (h : Stops p rest) :
    ¬ rest.head?.any q = true :=
  fun hany => (any_head?_iff hq).1 hany h

lemma head?_ne (h : Stops (· = c) rest) : ¬ rest.head? = some c :=
  fun hhead => head?_eq_iff.1 hhead h

lemma exists_cons_of_not_stops (h : ¬ Stops p rest) : ∃ d cs, rest = d :: cs ∧ p d := by
  cases rest with
  | nil => exact absurd stops_nil h
  | cons d cs => exact ⟨d, cs, rfl, not_not.1 fun hd => h (stops_cons.2 hd)⟩

lemma exists_digits_of_not_stops (h : ¬ Stops Digit rest) :
    ∃ ds cs, rest = ds ++ cs ∧ Digits ds ∧ Stops Digit cs := by
  obtain ⟨d, cs, rfl, hd⟩ := exists_cons_of_not_stops h
  exact ⟨_, _, List.takeWhile_append_dropWhile.symm, digits_takeWhile hd,
    stops_dropWhile fun _ => isDigit_iff⟩

lemma exists_word_of_not_stops (h : ¬ Stops Letter rest) :
    ∃ w cs, rest = w ++ cs ∧ Word w ∧ Stops WordChar cs := by
  obtain ⟨c, cs, rfl, hc⟩ := exists_cons_of_not_stops h
  exact ⟨_, _, List.takeWhile_append_dropWhile.symm, word_takeWhile hc,
    stops_dropWhile fun _ => continuesName_iff⟩

end View

/-! ## Tokens and errors -/

/-- The segment is read: the answer is the item that it stands for, if any, and the reader stands
behind it. -/
def HasRead (source : String) (front : List Char) (seg : Segment) (answer : Option Item)
    (s : State L) : Prop :=
  answer = seg.item? (Cursor.behind front) ∧ s.At source front seg.text seg.rest

/-- The segment is read, and stands for the item. -/
def Delivered (source : String) (front : List Char) (seg : Segment) (item : Item)
    (s : State L) : Prop :=
  HasRead source front seg (some item) s

section Segments

variable {c : Char} {cs : List Char}

lemma endsIn_slice_zero (h : s.At source front text rest) :
    (slice 0 s).EndsIn source fun lexeme s' =>
      lexeme = String.ofList text ∧ s'.At source front text rest := by
  have hrange : s.range 0 = ⟨byteSize front, byteSize (front ++ text)⟩ := by
    rw [State.range, h.start, h.current]
    rfl
  refine .slice h.valid ?_ ⟨rfl, h⟩
  rw [hrange]
  exact slice?_of_split h.split

/-- The characters between two quotation marks are taken out of the text.  Since the marks are one
byte long, the margin leaves off whole characters. -/
lemma endsIn_slice_one {body : List Char} (h : s.At source front ('"' :: (body ++ ['"'])) rest) :
    (slice 1 s).EndsIn source fun value s' =>
      value = String.ofList body ∧ s'.At source front ('"' :: (body ++ ['"'])) rest := by
  have hmark : byteSize ['"'] = 1 := by decide
  have hsplit : source.toList = front ++ ['"'] ++ body ++ ('"' :: rest) := by
    rw [h.split]
    simp
  have hstart : byteSize (front ++ ['"']) = byteSize front + 1 := by
    rw [byteSize_append, hmark]
  have hstop : byteSize (front ++ ['"'] ++ body) + 1
      = byteSize (front ++ '"' :: (body ++ ['"'])) := by
    rw [← hmark, ← byteSize_append, List.append_assoc, List.append_assoc, List.singleton_append]
  have hrange : s.range 1 = ⟨byteSize (front ++ ['"']), byteSize (front ++ ['"'] ++ body)⟩ := by
    rw [State.range, h.start, h.current, hstart, Nat.eq_sub_of_add_eq hstop]
    rfl
  refine .slice h.valid ?_ ⟨rfl, h⟩
  rw [hrange]
  exact slice?_of_split hsplit

lemma endsIn_token {kind : TokenKind} {literal : Option Literal}
    (h : s.At source front text rest) :
    (token kind literal s).EndsIn source
      (Delivered source front ⟨text, .token kind literal, rest⟩) := by
  refine (endsIn_slice_zero h).bind ?_
  rintro _ s₁ ⟨rfl, h⟩
  refine .look_bind (.record_bind (.pure ⟨?_, h⟩))
  rw [Segment.item?, Cursor.past_behind, h.start, h.current]

lemma endsIn_reject {cause : ErrorCause} (h : s.At source front text rest) :
    (reject cause s).EndsIn source (Delivered source front ⟨text, .error cause, rest⟩) := by
  refine .look_bind (.record_bind (.pure ⟨?_, h⟩))
  rw [Segment.item?, h.start]

lemma endsIn_readDot (h : s.At source front ['.'] rest) :
    (readDot s).EndsIn source (Delivered source front (Segment.ofDot rest)) := by
  refine (endsIn_peek h).bind ?_
  rintro _ s₁ ⟨rfl, h⟩
  cases rest with
  | nil => exact endsIn_token h
  | cons c cs =>
    dsimp only [List.head?_cons]
    rw [Segment.ofDot]
    split
    · refine (endsIn_advanceWhile h).bind ?_
      rintro _ s₂ h
      exact endsIn_reject h
    split
    · refine (endsIn_advanceWhile h).bind ?_
      rintro _ s₂ h
      exact endsIn_reject h
    · exact endsIn_token h

lemma endsIn_readString (h : s.At source front ['"'] rest) :
    (readString s).EndsIn source (Delivered source front (Segment.ofQuotation rest)) := by
  have hstops : Stops (· ≠ '"') (rest.dropWhile (· != '"')) := stops_dropWhile fun _ => bne_iff
  refine (endsIn_advanceWhile h).bind ?_
  rintro _ s₁ h
  rw [Segment.ofQuotation]
  split
  next hdrop =>
    rw [hdrop] at h
    refine (endsIn_advance_nil h).bind ?_
    rintro _ s₂ ⟨rfl, h⟩
    exact endsIn_reject h
  next mark cs hdrop =>
    rw [hdrop, stops_cons, not_not] at hstops
    rw [hdrop, hstops] at h
    refine (endsIn_advance_cons h).bind ?_
    rintro _ s₂ ⟨rfl, h⟩
    rw [hstops]
    refine (endsIn_slice_one h).bind ?_
    rintro _ s₃ ⟨rfl, h⟩
    exact endsIn_token h

lemma endsIn_rejectDot (h : s.At source front text ('.' :: rest)) :
    (rejectDot s).EndsIn source (Delivered source front (Segment.rejectDot text rest)) := by
  refine (endsIn_peekSecond h).bind ?_
  rintro _ s₁ ⟨rfl, h⟩
  rw [List.getElem?_cons_succ, ← List.head?_eq_getElem?]
  by_cases hword : Stops WordChar rest
  · rw [if_neg (not_any_head? (fun _ => continuesName_iff) hword),
      Segment.rejectDot_of_stops hword]
    refine (endsIn_advance_cons h).bind ?_
    rintro _ s₂ ⟨-, h⟩
    exact endsIn_reject h
  · rw [if_pos ((any_head?_iff fun _ => continuesName_iff).2 hword)]
    obtain ⟨c, cs, rfl, hc⟩ := exists_cons_of_not_stops hword
    rw [Segment.rejectDot_of_wordChar hc]
    exact endsIn_reject h

lemma endsIn_readValue {whole fraction : List Char} (h : s.At source front text rest)
    (hn : Numeral text whole fraction) :
    (readValue s).EndsIn source (Delivered source front
      ⟨text, .token .number (some (.number (.ofDigits whole fraction))), rest⟩) := by
  refine (endsIn_slice_zero h).bind ?_
  rintro _ s₁ ⟨rfl, h⟩
  rw [Binary64.parse?_numeral hn]
  exact endsIn_token h

lemma endsIn_readFraction {whole fraction : List Char} (hwhole : Digits whole)
    (hfraction : Digits fraction) (hrest : Stops Digit rest)
    (h : s.At source front whole ('.' :: (fraction ++ rest))) :
    (readFraction s).EndsIn source (Delivered source front
      (Segment.ofFraction whole fraction rest)) := by
  have hn : Numeral (whole ++ '.' :: fraction) whole fraction := .pointed hwhole hfraction
  refine (endsIn_advance_cons h).bind ?_
  rintro _ s₁ ⟨-, h⟩
  refine (endsIn_advanceWhile_run (hfraction.run hrest) h).bind ?_
  rintro _ s₂ h
  rw [List.append_assoc, List.singleton_append] at h
  refine (endsIn_peek h).bind ?_
  rintro _ s₃ ⟨rfl, h⟩
  by_cases hdot : Stops (· = '.') rest
  · rw [if_neg (head?_ne hdot), Segment.ofFraction_of_stops hdot]
    exact endsIn_readValue h hn
  · obtain ⟨_, cs, rfl, rfl⟩ := exists_cons_of_not_stops hdot
    rw [if_pos (head?_eq_iff.2 hdot)]
    exact endsIn_rejectDot h

/-- The digits behind the first one are taken, and then what follows them decides. -/
lemma endsIn_readNumber {d : Char} (hd : Digit d) (h : s.At source front [d] rest) :
    (readNumber s).EndsIn source (Delivered source front (Segment.ofNumeral (d :: rest))) := by
  have hwhole : Digits ((d :: rest).takeWhile Char.isDigit) := digits_takeWhile hd
  refine (endsIn_advanceWhile_behind (isDigit_iff.2 hd) h).bind ?_
  rintro _ s₁ h
  rw [Segment.ofNumeral]
  generalize (d :: rest).takeWhile Char.isDigit = whole at hwhole h ⊢
  generalize (d :: rest).dropWhile Char.isDigit = cs at h ⊢
  refine (endsIn_peek h).bind ?_
  rintro _ s₂ ⟨rfl, h⟩
  by_cases hletter : Stops Letter cs
  · rw [if_neg (not_any_head? (fun _ => startsName_iff) hletter)]
    refine (endsIn_peek h).bind ?_
    rintro _ s₃ ⟨rfl, h⟩
    by_cases hdot : Stops (· = '.') cs
    · rw [if_neg (head?_ne hdot), Segment.ofWhole_of_stops hdot hletter]
      exact endsIn_readValue h (.whole hwhole)
    · obtain ⟨_, cs, rfl, rfl⟩ := exists_cons_of_not_stops hdot
      rw [if_pos (head?_eq_iff.2 hdot), Segment.ofWhole]
      refine (endsIn_peekSecond h).bind ?_
      rintro _ s₄ ⟨rfl, h⟩
      rw [List.getElem?_cons_succ, ← List.head?_eq_getElem?]
      by_cases hdigit : Stops Digit cs
      · rw [if_neg (not_any_head? (fun _ => isDigit_iff) hdigit),
          Segment.ofPoint_of_stops hdigit]
        exact endsIn_rejectDot h
      · obtain ⟨fraction, cs, rfl, hfraction, hcs⟩ := exists_digits_of_not_stops hdigit
        rw [if_pos ((any_head?_iff fun _ => isDigit_iff).2 hdigit),
          Segment.ofPoint_of_digits hfraction hcs]
        exact endsIn_readFraction hwhole hfraction hcs h
  · obtain ⟨w, cs, rfl, hw, hcs⟩ := exists_word_of_not_stops hletter
    rw [if_pos ((any_head?_iff fun _ => startsName_iff).2 hletter),
      Segment.ofWhole_of_letter hw hcs]
    refine (endsIn_advanceWhile_run (hw.run hcs) h).bind ?_
    rintro _ s₃ h
    exact endsIn_reject h

lemma endsIn_readWord {c : Char} (hc : Letter c) (h : s.At source front [c] rest) :
    (readWord s).EndsIn source (Delivered source front (Segment.ofWord (c :: rest))) := by
  refine (endsIn_advanceWhile_behind (continuesName_iff.2 hc.wordChar) h).bind ?_
  rintro _ s₁ h
  refine (endsIn_slice_zero h).bind ?_
  rintro _ s₂ ⟨rfl, h⟩
  exact endsIn_token h

lemma endsIn_readPair {c : Char} {short long : Symbol} (h : s.At source front [c] rest) :
    (readPair short long s).EndsIn source
      (Delivered source front (Segment.ofPair c short long rest)) := by
  by_cases heq : Stops (· = '=') rest
  · rw [Segment.ofPair_of_stops heq]
    refine (endsIn_nextIs_of_stops h heq).bind ?_
    rintro _ s₁ ⟨rfl, h⟩
    exact endsIn_token h
  · obtain ⟨_, cs, rfl, rfl⟩ := exists_cons_of_not_stops heq
    refine (endsIn_nextIs_cons h).bind ?_
    rintro _ s₁ ⟨rfl, h⟩
    exact endsIn_token h

lemma endsIn_readSymbol {c : Char} (h : s.At source front [c] rest) :
    (readSymbol c s).EndsIn source (Delivered source front (Segment.ofSymbol c rest)) := by
  rw [readSymbol, Segment.ofSymbol]
  rcases Symbol.ofChar? c with _ | symbol
  · rcases Symbol.pair? c with _ | ⟨short, long⟩
    · exact endsIn_reject h
    · exact endsIn_readPair h
  · exact endsIn_token h

lemma endsIn_readItem {c : Char} (hblank : ¬ isBlank c = true) (hslash : c ≠ '/')
    (h : s.At source front [c] rest) :
    (readItem c s).EndsIn source (Delivered source front (Segment.first c rest)) := by
  rw [readItem, Segment.first, if_neg hblank, if_neg hslash]
  split
  next hdigit => exact endsIn_readNumber (isDigit_iff.1 hdigit) h
  split
  next hletter => exact endsIn_readWord (startsName_iff.1 hletter) h
  split
  next hquote =>
    subst hquote
    exact endsIn_readString h
  split
  next hdot =>
    subst hdot
    exact endsIn_readDot h
  · exact endsIn_readSymbol h

/-! ## Segments -/

lemma endsIn_deliver {w : Work L Item} {seg : Segment}
    (h : (w s).EndsIn source (Delivered source front seg)) :
    (deliver w s).EndsIn source (HasRead source front seg) :=
  h.bind fun _ _ hitem => .pure hitem

lemma endsIn_readSlash (h : s.At source front ['/'] rest) :
    (readSlash s).EndsIn source (HasRead source front (Segment.ofSlash rest)) := by
  by_cases hslash : Stops (· = '/') rest
  · rw [Segment.ofSlash_of_stops hslash]
    refine (endsIn_nextIs_of_stops h hslash).bind ?_
    rintro _ s₁ ⟨rfl, h⟩
    exact endsIn_deliver (endsIn_token h)
  · obtain ⟨_, cs, rfl, rfl⟩ := exists_cons_of_not_stops hslash
    refine (endsIn_nextIs_cons h).bind ?_
    rintro _ s₁ ⟨rfl, h⟩
    refine (endsIn_advanceWhile h).bind ?_
    rintro _ s₂ h
    exact .pure ⟨rfl, h⟩

/-- Behind its first character, the first segment of what is ahead is read, whichever it is. -/
lemma endsIn_readSegment {c : Char} (h : s.At source front [c] rest) :
    (readSegment c s).EndsIn source (HasRead source front (Segment.first c rest)) := by
  rw [readSegment]
  split
  next hblank =>
    rw [Segment.first, if_pos hblank]
    exact .pure ⟨rfl, h⟩
  next hblank =>
  split
  next hslash =>
    subst hslash
    exact endsIn_readSlash h
  next hslash => exact endsIn_deliver (endsIn_readItem hblank hslash h)

end Segments

/-! ## Questions -/

/-- The reader stands where the scan stands. -/
def Follows (source : String) (k : Scan) (s : State L) : Prop :=
  ∃ front text, s.At source front text k.rest ∧ k.cursor = Cursor.behind (front ++ text)

lemma follows_ofString (L : Lookahead (Nat × Char)) (source : String) :
    Follows source (Scan.ofString source) (State.ofString L source) :=
  ⟨[], [], State.at_ofString L source, rfl⟩

lemma Follows.valid {k : Scan} (h : Follows source k s) : s.Valid source := by
  obtain ⟨front, text, hat, -⟩ := h
  exact hat.valid

lemma endsIn_turn_nil (h : s.At source front text []) :
    (turn s).EndsIn source fun t s' =>
      t = .answered none ∧ s'.At source (front ++ text) [] [] := by
  refine (endsIn_mark h).bind ?_
  rintro _ s₁ h
  refine (endsIn_advance_nil h).bind ?_
  rintro _ s₂ ⟨rfl, h⟩
  exact .pure ⟨rfl, h⟩

/-- One turn reads the first segment of what is ahead. -/
lemma endsIn_turn_cons {c : Char} {cs : List Char} (h : s.At source front text (c :: cs)) :
    (turn s).EndsIn source fun t s' => ∃ answer, t = .ofItem? answer ∧
      HasRead source (front ++ text) (Segment.first c cs) answer s' := by
  refine (endsIn_mark h).bind ?_
  rintro _ s₁ h
  refine (endsIn_advance_cons h).bind ?_
  rintro _ s₂ ⟨rfl, h⟩
  refine (endsIn_readSegment h).bind ?_
  rintro answer s₃ h
  exact .pure ⟨answer, rfl, h⟩

/-- A reader that is asked for the next item answers as the scan does, and stands behind it where
the scan stands.  The induction is that of the scan, of which each step is a turn of the reader. -/
lemma endsIn_next {k : Scan} : ∀ {s : State L}, Follows source k s →
    (next s).EndsIn source fun answer s' =>
      answer = k.next.1 ∧ Follows source k.next.2 s' := by
  induction k using Scan.next.induct with
  | case1 cursor =>
    rintro s ⟨front, text, hat, hcursor⟩
    obtain ⟨hvalid, _, s', hend, rfl, hat⟩ := endsIn_turn_nil hat
    show (nextFrom s).EndsIn source _
    rw [nextFrom_of_answered hend, Scan.next_nil]
    exact ⟨hvalid, none, s', rfl, rfl, front ++ text, [], hat, by rw [hcursor, List.append_nil]⟩
  | case2 c cs cursor seg item =>
    rename_i hitem
    rintro s ⟨front, text, hat, rfl⟩
    obtain ⟨hvalid, _, s', hend, answer, rfl, hanswer, hat⟩ := endsIn_turn_cons hat
    obtain rfl : answer = some item := hanswer.trans hitem
    show (nextFrom s).EndsIn source _
    rw [nextFrom_of_answered hend, Scan.next_of_item hitem]
    exact ⟨hvalid, some item, s', rfl, rfl, front ++ text, seg.text, hat, Cursor.past_behind _ _⟩
  | case3 c cs cursor seg hitem =>
    rename_i ih
    rintro s ⟨front, text, hat, rfl⟩
    obtain ⟨hvalid, _, s', hend, answer, rfl, hanswer, hat⟩ := endsIn_turn_cons hat
    obtain rfl : answer = none := hanswer.trans hitem
    show (nextFrom s).EndsIn source _
    rw [nextFrom_of_again hend, Scan.next_of_nothing hitem]
    exact (ih ⟨front ++ text, seg.text, hat, Cursor.past_behind _ _⟩).after hvalid

lemma endsIn_calls {k : Scan} (n : Nat) (h : Follows source k s) :
    (calls n s).EndsIn source fun answers s' =>
      answers = (k.calls n).1 ∧ Follows source (k.calls n).2 s' := by
  induction n generalizing k s with
  | zero => exact .pure ⟨rfl, h⟩
  | succ n ih =>
    refine (endsIn_next h).bind ?_
    rintro _ s₁ ⟨rfl, h⟩
    refine (ih h).bind ?_
    rintro _ s₂ ⟨rfl, h⟩
    exact .pure ⟨rfl, h⟩

/-- **A reader keeps in step with its text.**  Whatever the text is, however the characters ahead
are kept, and however often the reader is asked for the next item: each state that it comes to on
the way is valid, each slice that it takes lies in the text and begins and ends between two
characters, and each numeral is a number.  So no question stops it.  The answers are those of the
scan, and the reader ends in a valid state, where the scan stands.

So it is with a reader that collects what is left (`session_in_step`). -/
theorem calls_in_step (L : Lookahead (Nat × Char)) (source : String) (n : Nat) :
    (∀ m ∈ (calls n (State.ofString L source)).moments, m.Valid source) ∧
      ∃ s, (calls n (State.ofString L source)).outcome
          = some (((Scan.ofString source).calls n).1, s) ∧
        s.Valid source ∧
        s.current = ((Scan.ofString source).calls n).2.cursor ∧
        s.ahead.map Prod.snd = ((Scan.ofString source).calls n).2.rest := by
  obtain ⟨hmoments, _, s, hend, rfl, hfollows⟩ := endsIn_calls n (follows_ofString L source)
  obtain ⟨front, text, hat, hcursor⟩ := hfollows
  exact ⟨hmoments, s, hend, hat.valid, hat.current.trans hcursor.symm, hat.map_snd_ahead⟩

/-- Five questions about a text of two lines, put to a reader with a queue.  It takes the value of
the string, which is one character of two bytes, and then all of the string out of the text, reads
the numeral and takes it again for the token, and looks past two dots to find that only one of them
leads into digits. -/
theorem calls_in_step_of_two_lines :
    (calls 5 (State.ofString (.queue _) "\"é\" 1.5\n2.x")).moments.filterMap Moment.range?
        = [⟨1, 3⟩, ⟨0, 4⟩, ⟨5, 8⟩, ⟨5, 8⟩] ∧
      (∀ m ∈ (calls 5 (State.ofString (.queue _) "\"é\" 1.5\n2.x")).moments,
        m.Valid "\"é\" 1.5\n2.x") ∧
      ∃ s, (calls 5 (State.ofString (.queue _) "\"é\" 1.5\n2.x")).outcome
          = some ([
            some (.token ⟨.string, "\"é\"", some (.string "é"), ⟨1, 1⟩, ⟨0, 4⟩⟩),
            some (.token ⟨.number, "1.5", some (.number ⟨0x3ff8000000000000#64⟩), ⟨1, 5⟩, ⟨5, 8⟩⟩),
            some (.error ⟨.invalidNumber, ⟨2, 1⟩⟩),
            some (.error ⟨.nameAfterDot, ⟨2, 2⟩⟩), none], s) ∧
        s.Valid "\"é\" 1.5\n2.x" ∧ s.current = ⟨12, 2, 4⟩ ∧ s.ahead.map Prod.snd = [] := by
  have hscan : (Scan.ofString "\"é\" 1.5\n2.x").calls 5 = ([
      some (.token ⟨.string, "\"é\"", some (.string "é"), ⟨1, 1⟩, ⟨0, 4⟩⟩),
      some (.token ⟨.number, "1.5", some (.number ⟨0x3ff8000000000000#64⟩), ⟨1, 5⟩, ⟨5, 8⟩⟩),
      some (.error ⟨.invalidNumber, ⟨2, 1⟩⟩),
      some (.error ⟨.nameAfterDot, ⟨2, 2⟩⟩), none], ⟨[], 12, 2, 4⟩) := by decide +kernel
  have h := calls_in_step (.queue _) "\"é\" 1.5\n2.x" 5
  rw [hscan] at h
  exact ⟨by decide +kernel, h⟩

end Reader

end ScriptLexer

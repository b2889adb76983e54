/-
# The first segment and the rules

The first segment of a text is read by looking at its first character and taking runs off the
text.  This file shows that what is read so is what the rules demand: the first segment obeys the
rules (`valid_first`), and whatever the rules allow at the start of a text is its first segment
(`first_eq_of_isSegment`).  Together the two say that the rules leave no choice.
-/
import ScriptLexer.Proofs.Segment.Rules
import Mathlib.Data.List.TakeWhile

namespace ScriptLexer

/-! ## Taking a run off a text -/

section Runs

variable {q : Char → Bool} {p : Char → Prop} {cs rest : List Char}

/-- A run that is not continued is taken off the text, and what follows it is left. -/
lemma run_of_stops (hq : ∀ c, q c = true ↔ p c) (hcs : ∀ c ∈ cs, p c) (hrest : Stops p rest) :
    (cs ++ rest).takeWhile q = cs ∧ (cs ++ rest).dropWhile q = rest := by
  rw [List.takeWhile_append_of_pos fun c hc => (hq c).2 (hcs c hc),
    List.dropWhile_append_of_pos fun c hc => (hq c).2 (hcs c hc)]
  cases rest with
  | nil => exact ⟨List.append_nil cs, rfl⟩
  | cons c rest =>
    have hc : ¬ q c = true := fun h => stops_cons.1 hrest ((hq c).1 h)
    rw [List.takeWhile_cons_of_neg hc, List.dropWhile_cons_of_neg hc]
    exact ⟨List.append_nil cs, rfl⟩

lemma forall_mem_takeWhile (hq : ∀ c, q c = true ↔ p c) : ∀ c ∈ cs.takeWhile q, p c :=
  fun c hc => (hq c).1 (List.mem_takeWhile_imp hc)

lemma stops_dropWhile (hq : ∀ c, q c = true ↔ p c) : Stops p (cs.dropWhile q) := by
  intro c hc hp
  have h := List.head?_dropWhile_not q cs
  rw [Option.mem_def.1 hc] at h
  have hfalse : q c = false := h
  rw [(hq c).2 hp] at hfalse
  exact Bool.noConfusion hfalse

end Runs

lemma bne_iff {c d : Char} : (c != d) = true ↔ c ≠ d := bne_iff_ne

lemma Digits.run {ds rest : List Char} (hds : Digits ds) (h : Stops Digit rest) :
    (ds ++ rest).takeWhile Char.isDigit = ds ∧ (ds ++ rest).dropWhile Char.isDigit = rest :=
  run_of_stops (fun _ => isDigit_iff) hds.2 h

lemma Word.run {w rest : List Char} (hw : Word w) (h : Stops WordChar rest) :
    (w ++ rest).takeWhile continuesName = w ∧ (w ++ rest).dropWhile continuesName = rest :=
  run_of_stops (fun _ => continuesName_iff) hw.2 h

lemma digits_takeWhile {c : Char} {cs : List Char} (h : Digit c) :
    Digits ((c :: cs).takeWhile Char.isDigit) := by
  refine ⟨?_, forall_mem_takeWhile fun _ => isDigit_iff⟩
  rw [List.takeWhile_cons_of_pos (isDigit_iff.2 h)]
  exact List.cons_ne_nil _ _

/-- The word at the start of a text that begins with a letter. -/
lemma word_takeWhile {c : Char} {cs : List Char} (h : Letter c) :
    Word ((c :: cs).takeWhile continuesName) := by
  refine ⟨⟨c, ?_, h⟩, forall_mem_takeWhile fun _ => continuesName_iff⟩
  rw [List.takeWhile_cons_of_pos (continuesName_iff.2 h.wordChar)]
  rfl

lemma Keyword.ofSpelling?_eq_some_iff {word : String} {k : Keyword} :
    Keyword.ofSpelling? word = some k ↔ k.spelling = word := by
  constructor
  · intro h
    simpa using List.find?_some h
  · rintro rfl
    cases k <;> rfl

lemma TokenKind.ofWord_spelling (k : Keyword) : TokenKind.ofWord k.spelling = .keyword k := by
  rw [TokenKind.ofWord, Keyword.ofSpelling?_eq_some_iff.2 rfl]

lemma TokenKind.ofWord_of_ne {word : String} (h : ∀ k : Keyword, k.spelling ≠ word) :
    TokenKind.ofWord word = .identifier := by
  have hnone : Keyword.ofSpelling? word = none := by
    rw [Option.eq_none_iff_forall_ne_some]
    intro k hk
    exact h k (Keyword.ofSpelling?_eq_some_iff.1 hk)
  rw [TokenKind.ofWord, hnone]

lemma Symbol.ofChar?_eq_some_iff {c : Char} {s : Symbol} :
    Symbol.ofChar? c = some s ↔ (c, s) ∈ loneSymbols := by
  constructor
  · intro h
    unfold Symbol.ofChar? at h
    split at h <;> simp_all [loneSymbols]
  · intro h
    simp only [loneSymbols, List.mem_cons, Prod.mk.injEq, List.not_mem_nil, or_false] at h
    rcases h with ⟨rfl, rfl⟩ | ⟨rfl, rfl⟩ | ⟨rfl, rfl⟩ | ⟨rfl, rfl⟩ | ⟨rfl, rfl⟩ | ⟨rfl, rfl⟩ |
      ⟨rfl, rfl⟩ | ⟨rfl, rfl⟩ | ⟨rfl, rfl⟩ <;> rfl

lemma Symbol.pair?_eq_some_iff {c : Char} {s l : Symbol} :
    Symbol.pair? c = some (s, l) ↔ (c, s, l) ∈ pairedSymbols := by
  constructor
  · intro h
    unfold Symbol.pair? at h
    split at h <;> simp_all [pairedSymbols]
  · intro h
    simp only [pairedSymbols, List.mem_cons, Prod.mk.injEq, List.not_mem_nil, or_false] at h
    rcases h with ⟨rfl, rfl, rfl⟩ | ⟨rfl, rfl, rfl⟩ | ⟨rfl, rfl, rfl⟩ | ⟨rfl, rfl, rfl⟩ <;> rfl

namespace Segment

/-! ## The first segment obeys the rules -/

/-- The segment obeys the rules in front of what it leaves behind. -/
def Valid (s : Segment) : Prop := IsSegment s.text s.outcome s.rest

lemma valid_ofWord {c : Char} {cs : List Char} (h : Letter c) : (ofWord (c :: cs)).Valid := by
  have hword : Word ((c :: cs).takeWhile continuesName) := word_takeWhile h
  have hstops : Stops WordChar ((c :: cs).dropWhile continuesName) :=
    stops_dropWhile fun _ => continuesName_iff
  by_cases hk : ∃ k : Keyword, k.spelling.toList = (c :: cs).takeWhile continuesName
  · obtain ⟨k, hk⟩ := hk
    have hkey := IsSegment.keyword (k := k) hstops
    rw [Valid, ofWord, ← hk, String.ofList_toList, TokenKind.ofWord_spelling]
    exact hkey
  · have hne : ∀ k : Keyword, k.spelling.toList ≠ (c :: cs).takeWhile continuesName :=
      fun k h => hk ⟨k, h⟩
    rw [Valid, ofWord, TokenKind.ofWord_of_ne fun k h => hne k (by rw [h, String.toList_ofList])]
    exact .identifier hword hne hstops

lemma valid_ofQuotation (cs : List Char) : (ofQuotation cs).Valid := by
  have hbody : ∀ c ∈ cs.takeWhile (· != '"'), c ≠ '"' := forall_mem_takeWhile fun _ => bne_iff
  have hstops : Stops (· ≠ '"') (cs.dropWhile (· != '"')) := stops_dropWhile fun _ => bne_iff
  rw [ofQuotation]
  split
  · exact .unterminated hbody
  · next mark rest hmark =>
    rw [hmark, stops_cons, not_not] at hstops
    subst hstops
    exact .string hbody

lemma valid_rejectDot {text whole fraction cs : List Char} (hn : Numeral text whole fraction)
    (hcs : fraction = [] → Stops Digit cs) : (rejectDot text cs).Valid := by
  cases cs with
  | nil => exact .strayDot hn stops_nil
  | cons c cs =>
    rw [rejectDot]
    by_cases hc : WordChar c
    · -- a digit behind the dot of a whole number would have been read as its fraction
      have hletter : fraction = [] → Letter c :=
        fun hf => hc.resolve_right (stops_cons.1 (hcs hf))
      rw [if_pos (continuesName_iff.2 hc)]
      exact .leadingDot hn hc hletter
    · rw [if_neg (by simpa using hc)]
      exact .strayDot hn (stops_cons.2 hc)

lemma valid_ofFraction {whole fraction cs : List Char} (hwhole : Digits whole)
    (hfraction : Digits fraction) (hcs : Stops Digit cs) :
    (ofFraction whole fraction cs).Valid := by
  have hn : Numeral (whole ++ '.' :: fraction) whole fraction := .pointed hwhole hfraction
  have hne : fraction ≠ [] := hfraction.1
  cases cs with
  | nil => exact .number hn stops_nil hcs fun h => absurd h hne
  | cons c cs =>
    by_cases hc : c = '.'
    · subst hc
      exact valid_rejectDot hn fun h => absurd h hne
    · rw [ofFraction]
      · exact .number hn (stops_cons.2 hc) hcs fun h => absurd h hne
      · rintro rest ⟨rfl, -⟩
        exact hc rfl

lemma valid_ofPoint {whole : List Char} (hwhole : Digits whole) (cs : List Char) :
    (ofPoint whole cs).Valid := by
  cases cs with
  | nil => exact valid_rejectDot (.whole hwhole) fun _ => stops_nil
  | cons c cs =>
    rw [ofPoint]
    by_cases hc : Digit c
    · rw [if_pos (isDigit_iff.2 hc)]
      exact valid_ofFraction hwhole (digits_takeWhile hc) (stops_dropWhile fun _ => isDigit_iff)
    · rw [if_neg (by simpa using hc)]
      exact valid_rejectDot (.whole hwhole) fun _ => stops_cons.2 hc

lemma valid_ofWhole {whole cs : List Char} (hwhole : Digits whole) (hcs : Stops Digit cs) :
    (ofWhole whole cs).Valid := by
  have hn : Numeral whole whole [] := .whole hwhole
  cases cs with
  | nil => exact .number hn stops_nil stops_nil fun _ => stops_nil
  | cons c cs =>
    by_cases hdot : c = '.'
    · subst hdot
      exact valid_ofPoint hwhole cs
    rw [ofWhole]
    · by_cases hc : Letter c
      · rw [if_pos (startsName_iff.2 hc)]
        exact .digitsWord hwhole (word_takeWhile hc) (stops_dropWhile fun _ => continuesName_iff)
      · rw [if_neg (by simpa using hc)]
        exact .number hn (stops_cons.2 hdot) hcs fun _ => stops_cons.2 hc
    · exact hdot

lemma valid_ofNumeral {c : Char} {cs : List Char} (h : Digit c) : (ofNumeral (c :: cs)).Valid :=
  valid_ofWhole (digits_takeWhile h) (stops_dropWhile fun _ => isDigit_iff)

lemma valid_ofDot (cs : List Char) : (ofDot cs).Valid := by
  cases cs with
  | nil => exact .dot stops_nil
  | cons c cs =>
    rw [ofDot]
    by_cases hd : Digit c
    · rw [if_pos (isDigit_iff.2 hd)]
      exact .dotDigits (digits_takeWhile hd) (stops_dropWhile fun _ => isDigit_iff)
    rw [if_neg (by simpa using hd)]
    by_cases hl : Letter c
    · rw [if_pos (startsName_iff.2 hl)]
      exact .dotWord (word_takeWhile hl) (stops_dropWhile fun _ => continuesName_iff)
    · rw [if_neg (by simpa using hl)]
      exact .dot (stops_cons.2 fun h => h.elim hl hd)

lemma valid_ofSlash (cs : List Char) : (ofSlash cs).Valid := by
  cases cs with
  | nil => exact .slash stops_nil
  | cons c cs =>
    by_cases hc : c = '/'
    · subst hc
      rw [ofSlash, List.takeWhile_cons_of_pos (by decide), List.dropWhile_cons_of_pos (by decide)]
      exact .comment (forall_mem_takeWhile fun _ => bne_iff) (stops_dropWhile fun _ => bne_iff)
    · rw [ofSlash]
      · exact .slash (stops_cons.2 hc)
      · rintro rest ⟨rfl, -⟩
        exact hc rfl

lemma valid_ofPair {c : Char} {short long : Symbol} (h : (c, short, long) ∈ pairedSymbols)
    (cs : List Char) : (ofPair c short long cs).Valid := by
  cases cs with
  | nil => exact .short h stops_nil
  | cons d cs =>
    by_cases hd : d = '='
    · subst hd
      exact .long h
    · rw [ofPair]
      · exact .short h (stops_cons.2 hd)
      · rintro rest ⟨rfl, -⟩
        exact hd rfl

/-- A character that begins no run, and is no blank, is looked up in the tables. -/
lemma valid_ofSymbol {c : Char} (hblank : ¬ Blank c) (hword : ¬ WordChar c) (hquote : c ≠ '"')
    (hdot : c ≠ '.') (hslash : c ≠ '/') (cs : List Char) : (ofSymbol c cs).Valid := by
  rw [ofSymbol]
  split
  · next hs => exact .lone (Symbol.ofChar?_eq_some_iff.1 hs)
  · next hp => exact valid_ofPair (Symbol.pair?_eq_some_iff.1 hp) cs
  · next hs hp =>
    refine .unexpected hblank hword fun hmem => ?_
    simp only [marks, List.mem_append, List.mem_map, List.mem_cons, List.not_mem_nil, or_false,
      Prod.exists, exists_and_right, exists_eq_right] at hmem
    rcases hmem with (⟨s, h⟩ | ⟨s, l, h⟩) | rfl | rfl | rfl
    · exact absurd (Symbol.ofChar?_eq_some_iff.2 h) (by simp [hs])
    · exact absurd (Symbol.pair?_eq_some_iff.2 h) (by simp [hp])
    · exact hslash rfl
    · exact hdot rfl
    · exact hquote rfl

/-- The first segment of a text obeys the rules. -/
lemma valid_first (c : Char) (cs : List Char) : (first c cs).Valid := by
  rw [first]
  split
  · next h => exact .blank (isBlank_iff.1 h)
  next hblank =>
  split
  · next h => exact valid_ofNumeral (isDigit_iff.1 h)
  next hdigit =>
  split
  · next h => exact valid_ofWord (startsName_iff.1 h)
  next hletter =>
  have hword : ¬ WordChar c :=
    fun h => h.elim (fun h => hletter (startsName_iff.2 h)) fun h => hdigit (isDigit_iff.2 h)
  split
  · next h => subst h; exact valid_ofQuotation cs
  next hquote =>
  split
  · next h => subst h; exact valid_ofDot cs
  next hdot =>
  split
  · next h => subst h; exact valid_ofSlash cs
  next hslash =>
  exact valid_ofSymbol (by simpa using hblank) hword hquote hdot hslash cs

/-! ## The rules leave no choice -/

lemma rejectDot_of_stops {text cs : List Char} (h : Stops WordChar cs) :
    rejectDot text cs = ⟨text ++ ['.'], .error .invalidNumber, cs⟩ := by
  cases cs with
  | nil => rfl
  | cons c cs => rw [rejectDot, if_neg (by simpa using h)]

lemma rejectDot_of_wordChar {text cs : List Char} {c : Char} (h : WordChar c) :
    rejectDot text (c :: cs) = ⟨text, .error .invalidNumber, '.' :: c :: cs⟩ := by
  rw [rejectDot, if_pos (continuesName_iff.2 h)]

lemma ofFraction_of_stops {whole fraction cs : List Char} (h : Stops (· = '.') cs) :
    ofFraction whole fraction cs = ⟨whole ++ '.' :: fraction,
      .token .number (some (.number (.ofDigits whole fraction))), cs⟩ := by
  rw [ofFraction]
  rintro rest rfl
  exact stops_cons.1 h rfl

lemma ofPoint_of_stops {whole cs : List Char} (h : Stops Digit cs) :
    ofPoint whole cs = rejectDot whole cs := by
  cases cs with
  | nil => rfl
  | cons c cs => rw [ofPoint, if_neg (by simpa using h)]

lemma ofPoint_of_digits {whole fraction cs : List Char} (hf : Digits fraction)
    (h : Stops Digit cs) : ofPoint whole (fraction ++ cs) = ofFraction whole fraction cs := by
  obtain ⟨d, ds, hds, hd⟩ := hf.exists_cons
  obtain ⟨htake, hdrop⟩ := hf.run h
  rw [hds, List.cons_append] at htake hdrop ⊢
  rw [ofPoint, if_pos (isDigit_iff.2 hd), htake, hdrop]

lemma ofWhole_of_letter {whole w cs : List Char} (hw : Word w) (h : Stops WordChar cs) :
    ofWhole whole (w ++ cs) = ⟨whole ++ w, .error .nameAfterDigits, cs⟩ := by
  obtain ⟨c, w', hcw, hc⟩ := hw.exists_cons
  obtain ⟨htake, hdrop⟩ := hw.run h
  rw [hcw, List.cons_append] at htake hdrop ⊢
  rw [ofWhole, if_pos (startsName_iff.2 hc), htake, hdrop]
  rintro rfl
  exact absurd hc (by decide)

lemma ofWhole_of_stops {whole cs : List Char} (hdot : Stops (· = '.') cs) (h : Stops Letter cs) :
    ofWhole whole cs = ⟨whole, .token .number (some (.number (.ofDigits whole []))), cs⟩ := by
  cases cs with
  | nil => rfl
  | cons c cs =>
    have hne : ¬ c = '.' := (stops_cons (p := (· = '.'))).1 hdot
    rw [ofWhole, if_neg (by simpa using h)]
    exact hne

lemma ofDot_of_digits {ds cs : List Char} (hds : Digits ds) (h : Stops Digit cs) :
    ofDot (ds ++ cs) = ⟨'.' :: ds, .error .invalidNumber, cs⟩ := by
  obtain ⟨d, ds', hcons, hd⟩ := hds.exists_cons
  obtain ⟨htake, hdrop⟩ := hds.run h
  rw [hcons, List.cons_append] at htake hdrop ⊢
  rw [ofDot, if_pos (isDigit_iff.2 hd), htake, hdrop]

lemma ofDot_of_word {w cs : List Char} (hw : Word w) (h : Stops WordChar cs) :
    ofDot (w ++ cs) = ⟨'.' :: w, .error .nameAfterDot, cs⟩ := by
  obtain ⟨c, w', hcons, hc⟩ := hw.exists_cons
  obtain ⟨htake, hdrop⟩ := hw.run h
  rw [hcons, List.cons_append] at htake hdrop ⊢
  rw [ofDot, if_neg (by simpa using hc.not_digit), if_pos (startsName_iff.2 hc), htake, hdrop]

lemma ofDot_of_stops {cs : List Char} (h : Stops WordChar cs) :
    ofDot cs = ⟨['.'], .token (.symbol .dot) none, cs⟩ := by
  cases cs with
  | nil => rfl
  | cons c cs =>
    obtain ⟨hletter, hdigit⟩ := not_or.1 (stops_cons.1 h)
    rw [ofDot, if_neg (by simpa using hdigit), if_neg (by simpa using hletter)]

lemma ofQuotation_of_string {body cs : List Char} (hbody : ∀ c ∈ body, c ≠ '"') :
    ofQuotation (body ++ '"' :: cs) = ⟨'"' :: (body ++ ['"']),
      .token .string (some (.string (String.ofList body))), cs⟩ := by
  have hmark : Stops (· ≠ '"') ('"' :: cs) := stops_cons.2 (not_not.2 rfl)
  obtain ⟨htake, hdrop⟩ := run_of_stops (fun _ => bne_iff) hbody hmark
  rw [ofQuotation, htake, hdrop]

lemma ofQuotation_of_unterminated {body : List Char} (hbody : ∀ c ∈ body, c ≠ '"') :
    ofQuotation body = ⟨'"' :: body, .error .unterminatedString, []⟩ := by
  obtain ⟨htake, hdrop⟩ := run_of_stops (fun _ => bne_iff) hbody stops_nil
  rw [List.append_nil] at htake hdrop
  rw [ofQuotation, htake, hdrop]

lemma ofSlash_of_comment {body cs : List Char} (hbody : ∀ c ∈ body, c ≠ '\n')
    (h : Stops (· ≠ '\n') cs) :
    ofSlash ('/' :: (body ++ cs)) = ⟨'/' :: '/' :: body, .nothing, cs⟩ := by
  have hall : ∀ c ∈ '/' :: body, c ≠ '\n' := by simpa using hbody
  obtain ⟨htake, hdrop⟩ := run_of_stops (fun _ => bne_iff) hall h
  rw [ofSlash, ← List.cons_append, htake, hdrop]

lemma ofSlash_of_stops {cs : List Char} (h : Stops (· = '/') cs) :
    ofSlash cs = ⟨['/'], .token (.symbol .slash) none, cs⟩ := by
  rw [ofSlash]
  rintro rest rfl
  exact stops_cons.1 h rfl

lemma ofPair_of_stops {c : Char} {short long : Symbol} {cs : List Char} (h : Stops (· = '=') cs) :
    ofPair c short long cs = ⟨[c], .token (.symbol short) none, cs⟩ := by
  rw [ofPair]
  rintro rest rfl
  exact stops_cons.1 h rfl

section Choice

variable {c : Char} {cs rest : List Char}

/-- A text that begins with digits is read as a numeral. -/
lemma first_of_digits {ds : List Char} (hds : Digits ds) (hrest : Stops Digit rest)
    (h : ds ++ rest = c :: cs) : first c cs = ofWhole ds rest := by
  have hc : Digit c := by
    obtain ⟨d, ds', rfl, hd⟩ := hds.exists_cons
    rwa [← (List.cons.inj h).1]
  have hblank : ¬ Blank c := fun hb => hb.not_wordChar hc.wordChar
  obtain ⟨htake, hdrop⟩ := hds.run hrest
  rw [first, if_neg (by simpa using hblank), if_pos (isDigit_iff.2 hc), ← h, ofNumeral, htake,
    hdrop]

/-- A text that begins with a numeral and a dot goes on behind the dot. -/
lemma first_of_numeral_dot {text whole fraction : List Char} (hn : Numeral text whole fraction)
    (hrest : fraction = [] → Stops Digit rest) (h : text ++ '.' :: rest = c :: cs) :
    first c cs = rejectDot text rest := by
  have hdot : Stops Digit ('.' :: rest) := stops_cons.2 (by decide)
  cases hn with
  | whole hw =>
    rw [first_of_digits hw hdot h]
    exact ofPoint_of_stops (hrest rfl)
  | pointed hw hf =>
    rw [List.append_assoc, List.cons_append] at h
    rw [first_of_digits hw (stops_cons.2 (by decide)) h, ofWhole, ofPoint_of_digits hf hdot]
    rfl

/-- A text that begins with a letter is read as a word. -/
lemma first_of_word {w : List Char} (hw : Word w) (hrest : Stops WordChar rest)
    (h : w ++ rest = c :: cs) :
    first c cs = ⟨w, .token (.ofWord (String.ofList w)) none, rest⟩ := by
  have hc : Letter c := by
    obtain ⟨d, w', rfl, hd⟩ := hw.exists_cons
    rwa [← (List.cons.inj h).1]
  have hblank : ¬ Blank c := fun hb => hb.not_wordChar hc.wordChar
  have hdigit : ¬ Digit c := hc.not_digit
  obtain ⟨htake, hdrop⟩ := hw.run hrest
  rw [first, if_neg (by simpa using hblank), if_neg (by simpa using hdigit),
    if_pos (startsName_iff.2 hc), ← h, ofWord, htake, hdrop]

/-- A character that begins no run is looked up in the tables. -/
lemma first_of_mark (hblank : ¬ Blank c) (hword : ¬ WordChar c) (hc : c ∉ ['/', '.', '"']) :
    first c cs = ofSymbol c cs := by
  simp only [List.mem_cons, List.not_mem_nil, or_false, not_or] at hc
  have hletter : ¬ Letter c := fun h => hword h.wordChar
  have hdigit : ¬ Digit c := fun h => hword h.wordChar
  rw [first, if_neg (by simpa using hblank), if_neg (by simpa using hdigit),
    if_neg (by simpa using hletter), if_neg hc.2.2, if_neg hc.2.1, if_neg hc.1]

lemma first_of_lone {s : Symbol} (h : (c, s) ∈ loneSymbols) :
    first c cs = ⟨[c], .token (.symbol s) none, cs⟩ := by
  have hall : ∀ p ∈ loneSymbols, ¬ Blank p.1 ∧ ¬ WordChar p.1 ∧ p.1 ∉ ['/', '.', '"'] := by decide
  obtain ⟨hblank, hword, hc⟩ := hall _ h
  rw [first_of_mark hblank hword hc, ofSymbol, Symbol.ofChar?_eq_some_iff.2 h]

lemma first_of_pair {s l : Symbol} (h : (c, s, l) ∈ pairedSymbols) :
    first c cs = ofPair c s l cs := by
  have hall : ∀ p ∈ pairedSymbols, ¬ Blank p.1 ∧ ¬ WordChar p.1 ∧ p.1 ∉ ['/', '.', '"'] ∧
      Symbol.ofChar? p.1 = none := by decide
  obtain ⟨hblank, hword, hc, hnone⟩ := hall _ h
  rw [first_of_mark hblank hword hc, ofSymbol, hnone, Symbol.pair?_eq_some_iff.2 h]

lemma first_of_unexpected (hblank : ¬ Blank c) (hword : ¬ WordChar c) (hmark : c ∉ marks) :
    first c cs = ⟨[c], .error (.unexpectedCharacter c), cs⟩ := by
  simp only [marks, List.mem_append, not_or] at hmark
  have hlone : Symbol.ofChar? c = none := by
    rw [Option.eq_none_iff_forall_ne_some]
    intro s hs
    exact hmark.1.1 (List.mem_map_of_mem (Symbol.ofChar?_eq_some_iff.1 hs))
  have hpair : Symbol.pair? c = none := by
    rw [Option.eq_none_iff_forall_ne_some]
    rintro ⟨s, l⟩ hsl
    exact hmark.1.2 (List.mem_map_of_mem (Symbol.pair?_eq_some_iff.1 hsl))
  rw [first_of_mark hblank hword hmark.2, ofSymbol, hlone, hpair]

end Choice

/-- Whatever the rules allow at the start of a text is its first segment. -/
lemma first_eq_of_isSegment {text rest cs : List Char} {outcome : Outcome} {c : Char}
    (hseg : IsSegment text outcome rest) (h : text ++ rest = c :: cs) :
    first c cs = ⟨text, outcome, rest⟩ := by
  cases hseg with
  | blank hb =>
    obtain ⟨rfl, rfl⟩ := List.cons.inj h
    rw [first, if_pos (isBlank_iff.2 hb)]
    rfl
  | comment hbody hrest =>
    obtain ⟨rfl, rfl⟩ := List.cons.inj h
    exact ofSlash_of_comment hbody hrest
  | lone hs =>
    obtain ⟨rfl, rfl⟩ := List.cons.inj h
    exact first_of_lone hs
  | short hp hrest =>
    obtain ⟨rfl, rfl⟩ := List.cons.inj h
    exact (first_of_pair hp).trans (ofPair_of_stops hrest)
  | long hp =>
    obtain ⟨rfl, rfl⟩ := List.cons.inj h
    exact first_of_pair hp
  | slash hrest =>
    obtain ⟨rfl, rfl⟩ := List.cons.inj h
    exact ofSlash_of_stops hrest
  | @string body _ hbody =>
    obtain ⟨rfl, rfl⟩ := List.cons.inj h
    show ofQuotation (body ++ ['"'] ++ rest) = _
    rw [List.append_assoc, List.singleton_append, ofQuotation_of_string hbody]
  | unterminated hbody =>
    rw [List.append_nil] at h
    obtain ⟨rfl, rfl⟩ := List.cons.inj h
    exact ofQuotation_of_unterminated hbody
  | keyword hrest =>
    rw [first_of_word (word_spelling _) hrest h, String.ofList_toList, TokenKind.ofWord_spelling]
  | identifier hw hne hrest =>
    rw [first_of_word hw hrest h, TokenKind.ofWord_of_ne]
    intro k hk
    exact hne k (by rw [hk, String.toList_ofList])
  | dotDigits hds hrest =>
    obtain ⟨rfl, rfl⟩ := List.cons.inj h
    exact ofDot_of_digits hds hrest
  | dotWord hw hrest =>
    obtain ⟨rfl, rfl⟩ := List.cons.inj h
    exact ofDot_of_word hw hrest
  | dot hrest =>
    obtain ⟨rfl, rfl⟩ := List.cons.inj h
    exact ofDot_of_stops hrest
  | digitsWord hds hw hrest =>
    -- the digits come to an end because a word begins with a letter
    rw [List.append_assoc] at h
    rw [first_of_digits hds (hw.stops_digit rest) h, ofWhole_of_letter hw hrest]
  | number hn hdot hdigit hletter =>
    cases hn with
    | whole hw => rw [first_of_digits hw hdigit h, ofWhole_of_stops hdot (hletter rfl)]
    | pointed hw hf =>
      rw [List.append_assoc, List.cons_append] at h
      rw [first_of_digits hw (stops_cons.2 (by decide)) h, ofWhole, ofPoint_of_digits hf hdigit,
        ofFraction_of_stops hdot]
  | strayDot hn hrest =>
    rw [List.append_assoc, List.singleton_append] at h
    rw [first_of_numeral_dot hn (fun _ => hrest.mono fun _ => Digit.wordChar) h,
      rejectDot_of_stops hrest]
  | leadingDot hn hc hletter =>
    -- behind a whole number only a letter leaves the dot, since digits would be its fraction
    rw [first_of_numeral_dot hn (fun hf => stops_cons.2 (hletter hf).not_digit) h,
      rejectDot_of_wordChar hc]
  | unexpected hblank hword hmark =>
    obtain ⟨rfl, rfl⟩ := List.cons.inj h
    exact first_of_unexpected hblank hword hmark

end Segment

/-- A segment with what follows it is a text that it is the first segment of. -/
lemma IsSegment.exists_first {text rest : List Char} {outcome : Outcome}
    (h : IsSegment text outcome rest) :
    ∃ c cs, text ++ rest = c :: cs ∧ Segment.first c cs = ⟨text, outcome, rest⟩ := by
  obtain ⟨c, cs, hcs⟩ := List.exists_cons_of_ne_nil
    (List.append_ne_nil_of_left_ne_nil h.text_ne_nil rest)
  exact ⟨c, cs, hcs, Segment.first_eq_of_isSegment h hcs⟩

/-- In front of a line feed the next segment is this line feed. -/
lemma IsSegment.eq_lineFeed {text rest : List Char} {outcome : Outcome}
    (h : IsSegment text outcome rest) (hstop : Stops (· ≠ '\n') (text ++ rest)) :
    text = ['\n'] ∧ outcome = .nothing := by
  obtain ⟨c, cs, hcs, hfirst⟩ := h.exists_first
  rw [hcs, stops_cons, not_not] at hstop
  subst hstop
  have hblank : Segment.first '\n' cs = ⟨['\n'], .nothing, cs⟩ := rfl
  rw [hblank] at hfirst
  obtain ⟨htext, houtcome, -⟩ := Segment.mk.inj hfirst
  exact ⟨htext.symm, houtcome.symm⟩

end ScriptLexer

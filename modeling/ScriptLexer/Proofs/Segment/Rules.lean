/-
# The rules of segments

The language says by rules, one for each kind of segment, which characters make up a segment, what
it stands for, and what may follow it.  The rules do not speak of how a text is read: a run is
described by the class of its characters, and it is as long as possible because the character
behind it, if there is one, falls outside the class.

`IsSegment text outcome rest` collects the rules: where `rest` is what follows it, `text` is a
segment that stands for `outcome`.
-/
import ScriptLexer.Segment
import Mathlib.Tactic.Lemma

namespace ScriptLexer

/-! ## Classes of characters -/

/-- The digits are `0` to `9`. -/
def Digit (c : Char) : Prop := '0' ≤ c ∧ c ≤ '9'

/-- The letters are `A` to `Z`, `a` to `z` and the underscore. -/
def Letter (c : Char) : Prop := 'A' ≤ c ∧ c ≤ 'Z' ∨ 'a' ≤ c ∧ c ≤ 'z' ∨ c = '_'

/-- The characters of a word are the letters and the digits. -/
def WordChar (c : Char) : Prop := Letter c ∨ Digit c

/-- The blanks are the space, the tab, the carriage return and the line feed. -/
def Blank (c : Char) : Prop := c = ' ' ∨ c = '\t' ∨ c = '\r' ∨ c = '\n'

instance : DecidablePred Digit := fun _ => inferInstanceAs (Decidable (_ ∧ _))
instance : DecidablePred Letter := fun _ => inferInstanceAs (Decidable (_ ∨ _ ∨ _))
instance : DecidablePred WordChar := fun _ => inferInstanceAs (Decidable (_ ∨ _))
instance : DecidablePred Blank := fun _ => inferInstanceAs (Decidable (_ ∨ _ ∨ _ ∨ _))

/-! ## Runs -/

/-- A run of the class `p` cannot be continued into `rest`. -/
def Stops (p : Char → Prop) (rest : List Char) : Prop := ∀ c ∈ rest.head?, ¬ p c

@[simp] lemma stops_nil {p : Char → Prop} : Stops p [] := by simp [Stops]

@[simp] lemma stops_cons {p : Char → Prop} {c : Char} {cs : List Char} :
    Stops p (c :: cs) ↔ ¬ p c := by simp [Stops]

/-- A run that a larger class cannot continue cannot be continued by a smaller one. -/
lemma Stops.mono {p q : Char → Prop} {rest : List Char} (h : Stops p rest)
    (hqp : ∀ c, q c → p c) : Stops q rest := fun c hc hq => h c hc (hqp c hq)

/-- At least one digit, and nothing else. -/
def Digits (ds : List Char) : Prop := ds ≠ [] ∧ ∀ c ∈ ds, Digit c

/-- A letter, and letters and digits behind it. -/
def Word (w : List Char) : Prop := (∃ c ∈ w.head?, Letter c) ∧ ∀ c ∈ w, WordChar c

/-- `Numeral text whole fraction`: the numeral `text` has the digits `whole`, and if there is a
point in it the digits `fraction` behind the point. -/
inductive Numeral : List Char → List Char → List Char → Prop
  | whole {ds : List Char} : Digits ds → Numeral ds ds []
  | pointed {ds fs : List Char} : Digits ds → Digits fs → Numeral (ds ++ '.' :: fs) ds fs

/-! ## Symbols -/

/-- The symbols of one character that does not begin another symbol. -/
def loneSymbols : List (Char × Symbol) :=
  [('(', .leftParen), (')', .rightParen), ('{', .leftBrace), ('}', .rightBrace), (',', .comma),
    ('-', .minus), ('+', .plus), (';', .semicolon), ('*', .star)]

/-- The characters that are a symbol alone, and another one with an equals sign behind them. -/
def pairedSymbols : List (Char × Symbol × Symbol) :=
  [('!', .bang, .bangEqual), ('=', .equal, .equalEqual), ('<', .less, .lessEqual),
    ('>', .greater, .greaterEqual)]

/-- The characters that begin a segment of their own: those of the symbols, and the quotation
mark. -/
def marks : List Char :=
  loneSymbols.map Prod.fst ++ pairedSymbols.map Prod.fst ++ ['/', '.', '"']

/-! ## The rules -/

/-- `IsSegment text outcome rest`: followed by `rest`, the characters `text` are a segment that
stands for `outcome`. -/
inductive IsSegment : List Char → Outcome → List Char → Prop
  /-- A blank stands for nothing. -/
  | blank {c : Char} {rest : List Char} : Blank c → IsSegment [c] .nothing rest
  /-- Two slashes begin a comment, which ends before the next line feed. -/
  | comment {body rest : List Char} : (∀ c ∈ body, c ≠ '\n') → Stops (· ≠ '\n') rest →
      IsSegment ('/' :: '/' :: body) .nothing rest
  /-- A symbol of one character, whatever follows it. -/
  | lone {c : Char} {s : Symbol} {rest : List Char} : (c, s) ∈ loneSymbols →
      IsSegment [c] (.token (.symbol s) none) rest
  /-- A symbol of one character that no equals sign follows. -/
  | short {c : Char} {s l : Symbol} {rest : List Char} : (c, s, l) ∈ pairedSymbols →
      Stops (· = '=') rest → IsSegment [c] (.token (.symbol s) none) rest
  /-- A symbol of two characters, of which the second is the equals sign. -/
  | long {c : Char} {s l : Symbol} {rest : List Char} : (c, s, l) ∈ pairedSymbols →
      IsSegment [c, '='] (.token (.symbol l) none) rest
  /-- A slash that no slash follows. -/
  | slash {rest : List Char} : Stops (· = '/') rest →
      IsSegment ['/'] (.token (.symbol .slash) none) rest
  /-- A string ends with the next quotation mark. -/
  | string {body rest : List Char} : (∀ c ∈ body, c ≠ '"') →
      IsSegment ('"' :: (body ++ ['"'])) (.token .string (some (.string (String.ofList body)))) rest
  /-- A quotation mark that no other follows takes up all that is left. -/
  | unterminated {body : List Char} : (∀ c ∈ body, c ≠ '"') →
      IsSegment ('"' :: body) (.error .unterminatedString) []
  /-- A word that is spelled as a keyword. -/
  | keyword {k : Keyword} {rest : List Char} : Stops WordChar rest →
      IsSegment k.spelling.toList (.token (.keyword k) none) rest
  /-- Any other word is a name. -/
  | identifier {w rest : List Char} : Word w → (∀ k : Keyword, k.spelling.toList ≠ w) →
      Stops WordChar rest → IsSegment w (.token .identifier none) rest
  /-- A dot may not lead into digits. -/
  | dotDigits {ds rest : List Char} : Digits ds → Stops Digit rest →
      IsSegment ('.' :: ds) (.error .invalidNumber) rest
  /-- A dot may not lead into a word. -/
  | dotWord {w rest : List Char} : Word w → Stops WordChar rest →
      IsSegment ('.' :: w) (.error .nameAfterDot) rest
  /-- Any other dot is a symbol. -/
  | dot {rest : List Char} : Stops WordChar rest →
      IsSegment ['.'] (.token (.symbol .dot) none) rest
  /-- Digits may not run into a word. -/
  | digitsWord {ds w rest : List Char} : Digits ds → Word w → Stops WordChar rest →
      IsSegment (ds ++ w) (.error .nameAfterDigits) rest
  /-- A numeral that neither a dot nor a digit follows, nor a letter if it has no point. -/
  | number {text whole fraction rest : List Char} : Numeral text whole fraction →
      Stops (· = '.') rest → Stops Digit rest → (fraction = [] → Stops Letter rest) →
      IsSegment text (.token .number (some (.number (.ofDigits whole fraction)))) rest
  /-- A dot behind a numeral is misplaced, and swallowed if it leads into no word. -/
  | strayDot {text whole fraction rest : List Char} : Numeral text whole fraction →
      Stops WordChar rest → IsSegment (text ++ ['.']) (.error .invalidNumber) rest
  /-- A misplaced dot that leads into a word or, behind a point, into digits is left over. -/
  | leadingDot {text whole fraction rest : List Char} {c : Char} : Numeral text whole fraction →
      WordChar c → (fraction = [] → Letter c) →
      IsSegment text (.error .invalidNumber) ('.' :: c :: rest)
  /-- No segment begins with any other character, which is then an error alone. -/
  | unexpected {c : Char} {rest : List Char} : ¬ Blank c → ¬ WordChar c → c ∉ marks →
      IsSegment [c] (.error (.unexpectedCharacter c)) rest

/-! ## Classes and their tests -/

@[simp] lemma isDigit_iff {c : Char} : c.isDigit = true ↔ Digit c := by
  simp [Char.isDigit, Digit, Char.le_def]

@[simp] lemma startsName_iff {c : Char} : startsName c = true ↔ Letter c := by
  have hupper : c.isUpper = true ↔ 'A' ≤ c ∧ c ≤ 'Z' := decide_eq_true_iff
  have hlower : c.isLower = true ↔ 'a' ≤ c ∧ c ≤ 'z' :=
    Bool.and_eq_true_iff.trans (and_congr decide_eq_true_iff decide_eq_true_iff)
  show (c.isUpper || c.isLower || c == '_') = true ↔ Letter c
  rw [Bool.or_eq_true, Bool.or_eq_true, hupper, hlower, beq_iff_eq, or_assoc]
  rfl

@[simp] lemma continuesName_iff {c : Char} : continuesName c = true ↔ WordChar c := by
  simp [continuesName, WordChar]

@[simp] lemma isBlank_iff {c : Char} : isBlank c = true ↔ Blank c := by
  simp [isBlank, Blank, or_assoc]

lemma Digit.wordChar {c : Char} (h : Digit c) : WordChar c := Or.inr h

lemma Letter.wordChar {c : Char} (h : Letter c) : WordChar c := Or.inl h

lemma Letter.not_digit {c : Char} (h : Letter c) : ¬ Digit c := by
  rintro ⟨h₀, h₉⟩
  rcases h with ⟨hA, -⟩ | ⟨ha, -⟩ | rfl
  · exact absurd (Char.le_trans hA h₉) (by decide)
  · exact absurd (Char.le_trans ha h₉) (by decide)
  · exact absurd h₉ (by decide)

lemma Blank.not_wordChar {c : Char} (h : Blank c) : ¬ WordChar c := by
  rcases h with rfl | rfl | rfl | rfl <;> decide

/-! ## Words and digits -/

lemma Digits.exists_cons {ds : List Char} (h : Digits ds) : ∃ d ds', ds = d :: ds' ∧ Digit d := by
  obtain ⟨d, ds', rfl⟩ := List.exists_cons_of_ne_nil h.1
  exact ⟨d, ds', rfl, h.2 d List.mem_cons_self⟩

lemma Word.exists_cons {w : List Char} (h : Word w) : ∃ c w', w = c :: w' ∧ Letter c := by
  obtain ⟨⟨c, hc, hletter⟩, -⟩ := h
  obtain ⟨w', rfl⟩ := List.head?_eq_some_iff.1 hc
  exact ⟨c, w', rfl, hletter⟩

lemma Word.stops_digit {w : List Char} (h : Word w) (rest : List Char) :
    Stops Digit (w ++ rest) := by
  obtain ⟨c, w', rfl, hc⟩ := h.exists_cons
  exact stops_cons.2 hc.not_digit

lemma word_spelling (k : Keyword) : Word k.spelling.toList := by
  have hall : k.spelling.toList.all continuesName = true := by cases k <;> decide
  refine ⟨?_, fun c hc => continuesName_iff.1 (List.all_eq_true.1 hall c hc)⟩
  cases k <;> exact ⟨_, rfl, by decide⟩

lemma Word.ne_nil {w : List Char} (h : Word w) : w ≠ [] := by
  obtain ⟨c, w', rfl, -⟩ := h.exists_cons
  exact List.cons_ne_nil c w'

lemma Numeral.exists_cons {text whole fraction : List Char} (h : Numeral text whole fraction) :
    ∃ d ds, text = d :: ds ∧ Digit d := by
  cases h with
  | whole hds => exact hds.exists_cons
  | pointed hds _ =>
    obtain ⟨d, ds, rfl, hd⟩ := hds.exists_cons
    exact ⟨d, _, rfl, hd⟩

lemma Numeral.ne_nil {text whole fraction : List Char} (h : Numeral text whole fraction) :
    text ≠ [] := by
  obtain ⟨d, ds, rfl, -⟩ := h.exists_cons
  exact List.cons_ne_nil d ds

lemma IsSegment.text_ne_nil {text rest : List Char} {outcome : Outcome}
    (h : IsSegment text outcome rest) : text ≠ [] := by
  cases h with
  | keyword => exact (word_spelling _).ne_nil
  | identifier hw => exact hw.ne_nil
  | digitsWord hds => exact List.append_ne_nil_of_left_ne_nil hds.1 _
  | number hn => exact hn.ne_nil
  | strayDot => exact List.append_ne_nil_of_right_ne_nil _ (List.cons_ne_nil _ _)
  | leadingDot hn => exact hn.ne_nil
  | _ => exact List.cons_ne_nil _ _

/-- A number is a numeral, which no letter follows unless it has a point, and its digits denote its
value. -/
lemma IsSegment.numeral {text rest : List Char} {literal : Option Literal}
    (h : IsSegment text (.token .number literal) rest) :
    ∃ whole fraction, Numeral text whole fraction ∧
      literal = some (.number (.ofDigits whole fraction)) ∧
      (fraction = [] → Stops Letter rest) := by
  cases h with
  | number hn _ _ hletter => exact ⟨_, _, hn, rfl, hletter⟩

lemma IsSegment.kind_ne_endOfFile {text rest : List Char} {kind : TokenKind}
    {literal : Option Literal} (h : IsSegment text (.token kind literal) rest) :
    kind ≠ .endOfFile := by
  cases h <;> exact TokenKind.noConfusion

end ScriptLexer

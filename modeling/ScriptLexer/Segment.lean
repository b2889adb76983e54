/-
# The first segment of a text

A text is read from left to right in segments.  The first characters of what is left decide where
the next segment ends and what it stands for: a blank or a comment stands for nothing, and any
other segment is a token or an error.  Every run is taken as long as possible.

The main statement is `Segment.text_append_rest_first`: a segment and what it leaves behind make
up the text again.  With `Segment.text_first_ne_nil` it follows that what is left is shorter each
time, which is why reading a text comes to an end.
-/
import ScriptLexer.CharClass
import ScriptLexer.LexicalError
import ScriptLexer.Token.Kind
import ScriptLexer.Token.Literal
import ScriptLexer.Binary64.Nearest

namespace ScriptLexer

/-- What a segment stands for. -/
inductive Outcome
  /-- Nothing: the segment is a blank or a comment. -/
  | nothing
  /-- A token of the given kind and value. -/
  | token (kind : TokenKind) (literal : Option Literal)
  /-- A breach of the lexical rules. -/
  | error (cause : ErrorCause)
deriving DecidableEq, Repr

/-- The first piece of a text, split off from the rest. -/
structure Segment where
  /-- The characters of the segment. -/
  text : List Char
  /-- What they stand for. -/
  outcome : Outcome
  /-- The text behind the segment. -/
  rest : List Char
deriving DecidableEq, Repr

namespace Segment

/-! ## Words and strings -/

/-- The segment of a text that begins with a letter or an underscore: a name or a keyword. -/
def ofWord (cs : List Char) : Segment :=
  let word := cs.takeWhile continuesName
  ⟨word, .token (.ofWord (String.ofList word)) none, cs.dropWhile continuesName⟩

/-- The segment of a quotation mark followed by `cs`: a string up to the next quotation mark, or
an error that takes up all that is left if there is none. -/
def ofQuotation (cs : List Char) : Segment :=
  let body := cs.takeWhile (· != '"')
  match cs.dropWhile (· != '"') with
  | [] => ⟨'"' :: body, .error .unterminatedString, []⟩
  | mark :: rest =>
    ⟨'"' :: (body ++ [mark]), .token .string (some (.string (String.ofList body))), rest⟩

/-! ## Numbers and dots -/

/-- The segment of a numeral that ends before a misplaced dot, with `cs` behind the dot.  A dot
that leads into digits or a name is left to be reported on its own, any other is swallowed. -/
def rejectDot (numeral cs : List Char) : Segment :=
  match cs with
  | c :: _ =>
    if continuesName c then ⟨numeral, .error .invalidNumber, '.' :: cs⟩
    else ⟨numeral ++ ['.'], .error .invalidNumber, cs⟩
  | [] => ⟨numeral ++ ['.'], .error .invalidNumber, []⟩

/-- The segment of the digits `whole` with a dot and the digits `fraction` behind it, followed by
`cs`, which may not begin with another dot. -/
def ofFraction (whole fraction cs : List Char) : Segment :=
  let numeral := whole ++ '.' :: fraction
  match cs with
  | '.' :: rest => rejectDot numeral rest
  | _ => ⟨numeral, .token .number (some (.number (.ofDigits whole fraction))), cs⟩

/-- The segment of the digits `whole` and a dot, followed by `cs`, which has to begin with a
digit. -/
def ofPoint (whole cs : List Char) : Segment :=
  match cs with
  | c :: _ =>
    if c.isDigit then ofFraction whole (cs.takeWhile Char.isDigit) (cs.dropWhile Char.isDigit)
    else rejectDot whole cs
  | [] => rejectDot whole []

/-- The segment of the digits `whole`, followed by `cs`, which does not begin with a digit. -/
def ofWhole (whole cs : List Char) : Segment :=
  match cs with
  | '.' :: rest => ofPoint whole rest
  | c :: _ =>
    if startsName c then
      ⟨whole ++ cs.takeWhile continuesName, .error .nameAfterDigits, cs.dropWhile continuesName⟩
    else ⟨whole, .token .number (some (.number (.ofDigits whole []))), cs⟩
  | [] => ⟨whole, .token .number (some (.number (.ofDigits whole []))), []⟩

/-- The segment of a text that begins with a digit. -/
def ofNumeral (cs : List Char) : Segment :=
  ofWhole (cs.takeWhile Char.isDigit) (cs.dropWhile Char.isDigit)

/-- The segment of a dot followed by `cs`.  Neither a number nor a name may begin with a dot, and
one that does is rejected whole. -/
def ofDot (cs : List Char) : Segment :=
  match cs with
  | c :: _ =>
    if c.isDigit then
      ⟨'.' :: cs.takeWhile Char.isDigit, .error .invalidNumber, cs.dropWhile Char.isDigit⟩
    else if startsName c then
      ⟨'.' :: cs.takeWhile continuesName, .error .nameAfterDot, cs.dropWhile continuesName⟩
    else ⟨['.'], .token (.symbol .dot) none, cs⟩
  | [] => ⟨['.'], .token (.symbol .dot) none, []⟩

/-! ## Comments and symbols -/

/-- The segment of a slash followed by `cs`: a second slash makes it a comment, which ends before
the next line feed. -/
def ofSlash (cs : List Char) : Segment :=
  match cs with
  | '/' :: _ => ⟨'/' :: cs.takeWhile (· != '\n'), .nothing, cs.dropWhile (· != '\n')⟩
  | _ => ⟨['/'], .token (.symbol .slash) none, cs⟩

/-- The segment of a character `c` that spells `short` alone and `long` together with an equals
sign, followed by `cs`. -/
def ofPair (c : Char) (short long : Symbol) (cs : List Char) : Segment :=
  match cs with
  | '=' :: rest => ⟨[c, '='], .token (.symbol long) none, rest⟩
  | _ => ⟨[c], .token (.symbol short) none, cs⟩

/-- The segment of a character `c` that begins no run, followed by `cs`. -/
def ofSymbol (c : Char) (cs : List Char) : Segment :=
  match Symbol.ofChar? c, Symbol.pair? c with
  | some s, _ => ⟨[c], .token (.symbol s) none, cs⟩
  | none, some (short, long) => ofPair c short long cs
  | none, none => ⟨[c], .error (.unexpectedCharacter c), cs⟩

/-! ## The first segment -/

/-- The first segment of the text `c :: cs`. -/
def first (c : Char) (cs : List Char) : Segment :=
  if isBlank c then ⟨[c], .nothing, cs⟩
  else if c.isDigit then ofNumeral (c :: cs)
  else if startsName c then ofWord (c :: cs)
  else if c = '"' then ofQuotation cs
  else if c = '.' then ofDot cs
  else if c = '/' then ofSlash cs
  else ofSymbol c cs

/-! ## A segment and the rest make up the text -/

theorem text_append_rest_ofWord (cs : List Char) :
    (ofWord cs).text ++ (ofWord cs).rest = cs :=
  List.takeWhile_append_dropWhile

theorem text_append_rest_ofQuotation (cs : List Char) :
    (ofQuotation cs).text ++ (ofQuotation cs).rest = '"' :: cs := by
  have h := List.takeWhile_append_dropWhile (p := (· != '"')) (l := cs)
  unfold ofQuotation
  split <;> simp_all

theorem text_append_rest_rejectDot (numeral cs : List Char) :
    (rejectDot numeral cs).text ++ (rejectDot numeral cs).rest = numeral ++ '.' :: cs := by
  unfold rejectDot
  split
  · split <;> simp
  · simp

theorem text_append_rest_ofFraction (whole fraction cs : List Char) :
    (ofFraction whole fraction cs).text ++ (ofFraction whole fraction cs).rest
      = whole ++ '.' :: (fraction ++ cs) := by
  unfold ofFraction
  split
  · simp [text_append_rest_rejectDot]
  · simp

theorem text_append_rest_ofPoint (whole cs : List Char) :
    (ofPoint whole cs).text ++ (ofPoint whole cs).rest = whole ++ '.' :: cs := by
  unfold ofPoint
  split
  · split
    · rw [text_append_rest_ofFraction, List.takeWhile_append_dropWhile]
    · exact text_append_rest_rejectDot ..
  · exact text_append_rest_rejectDot ..

theorem text_append_rest_ofWhole (whole cs : List Char) :
    (ofWhole whole cs).text ++ (ofWhole whole cs).rest = whole ++ cs := by
  unfold ofWhole
  split
  · exact text_append_rest_ofPoint ..
  · split
    · simp only [List.append_assoc, List.takeWhile_append_dropWhile]
    · rfl
  · rfl

theorem text_append_rest_ofNumeral (cs : List Char) :
    (ofNumeral cs).text ++ (ofNumeral cs).rest = cs := by
  rw [ofNumeral, text_append_rest_ofWhole, List.takeWhile_append_dropWhile]

theorem text_append_rest_ofDot (cs : List Char) :
    (ofDot cs).text ++ (ofDot cs).rest = '.' :: cs := by
  unfold ofDot
  split
  · split
    · simp only [List.cons_append, List.takeWhile_append_dropWhile]
    · split
      · simp only [List.cons_append, List.takeWhile_append_dropWhile]
      · rfl
  · rfl

theorem text_append_rest_ofSlash (cs : List Char) :
    (ofSlash cs).text ++ (ofSlash cs).rest = '/' :: cs := by
  unfold ofSlash
  split
  · simp only [List.cons_append, List.takeWhile_append_dropWhile]
  · rfl

theorem text_append_rest_ofPair (c : Char) (short long : Symbol) (cs : List Char) :
    (ofPair c short long cs).text ++ (ofPair c short long cs).rest = c :: cs := by
  unfold ofPair
  split <;> rfl

theorem text_append_rest_ofSymbol (c : Char) (cs : List Char) :
    (ofSymbol c cs).text ++ (ofSymbol c cs).rest = c :: cs := by
  unfold ofSymbol
  split
  · rfl
  · exact text_append_rest_ofPair ..
  · rfl

/-- The first segment of a text and the text behind it make up the text. -/
theorem text_append_rest_first (c : Char) (cs : List Char) :
    (first c cs).text ++ (first c cs).rest = c :: cs := by
  unfold first
  split
  · rfl
  split
  · exact text_append_rest_ofNumeral _
  split
  · exact text_append_rest_ofWord _
  split
  · next h => rw [h]; exact text_append_rest_ofQuotation _
  split
  · next h => rw [h]; exact text_append_rest_ofDot _
  split
  · next h => rw [h]; exact text_append_rest_ofSlash _
  · exact text_append_rest_ofSymbol ..

/-! ## A segment has a character -/

theorem text_rejectDot_ne_nil {numeral : List Char} (h : numeral ≠ []) (cs : List Char) :
    (rejectDot numeral cs).text ≠ [] := by
  unfold rejectDot
  split
  · split <;> simp [h]
  · simp

theorem text_ofWhole_ne_nil {whole : List Char} (h : whole ≠ []) (cs : List Char) :
    (ofWhole whole cs).text ≠ [] := by
  unfold ofWhole
  split
  · unfold ofPoint
    split
    · split
      · unfold ofFraction
        split
        · exact text_rejectDot_ne_nil (by simp) _
        · simp
      · exact text_rejectDot_ne_nil h _
    · exact text_rejectDot_ne_nil h _
  · split
    · simp [h]
    · exact h
  · exact h

/-- The first segment of a text has at least one character. -/
theorem text_first_ne_nil (c : Char) (cs : List Char) : (first c cs).text ≠ [] := by
  unfold first
  split
  · simp
  split
  · next h => exact text_ofWhole_ne_nil (by simp [h]) _
  split
  · next h => simp [ofWord, continuesName, h]
  split
  · unfold ofQuotation
    split <;> simp
  split
  · unfold ofDot
    split
    · split
      · simp
      · split <;> simp
    · simp
  split
  · unfold ofSlash
    split <;> simp
  · unfold ofSymbol
    split
    · simp
    · unfold ofPair
      split <;> simp
    · simp

/-- What the first segment leaves behind is shorter than the text. -/
theorem length_rest_first_lt (c : Char) (cs : List Char) :
    (first c cs).rest.length < (c :: cs).length := by
  have h := congrArg List.length (text_append_rest_first c cs)
  have hpos := List.length_pos_iff.2 (text_first_ne_nil c cs)
  rw [List.length_append] at h
  omega

end Segment

end ScriptLexer

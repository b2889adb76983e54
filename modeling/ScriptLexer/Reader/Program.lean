/-
# The program of a reader

What a reader does to deliver the next item: it starts a segment, takes the first character, and
goes on as this character demands, with no more than the next two characters in view.  A segment
that stands for nothing makes it start over.  The program holds no copy of what it has read: lexemes
and the values of strings are taken out of the text by their offsets.  A token is recorded where it
is made and an error where it is found, and the end of the scan where the items are collected.

Starting over comes to an end because a character is taken each time (`length_ahead_turn_lt`), and
so does collecting (`length_ahead_nextFrom_lt`).
-/
import ScriptLexer.Binary64.Parse
import ScriptLexer.Reader.Work
import ScriptLexer.Scan

namespace ScriptLexer

namespace Reader

variable {L : Lookahead (Nat × Char)}

/-! ## Characters -/

/-- Starts a new segment. -/
def mark : Work L Unit :=
  move (fun s => ((), s.mark)) fun _ => Nat.le_refl _

/-- The next character. -/
def peek : Work L (Option Char) :=
  move State.peek fun s => Nat.le_of_eq (congrArg List.length s.ahead_peek)

/-- The character behind the next one. -/
def peekSecond : Work L (Option Char) :=
  move State.peekSecond fun s => Nat.le_of_eq (congrArg List.length s.ahead_peekSecond)

/-- Takes the next character. -/
def advance : Work L (Option Char) :=
  move State.advance State.length_ahead_advance_le

/-- Takes the next character if it is `c`, and says whether it was. -/
def nextIs (c : Char) : Work L Bool := do
  match ← peek with
  | some d =>
    if d = c then
      let _ ← advance
      pure true
    else pure false
  | none => pure false

/-- How characters are taken, from the state `s` on, as long as they are of the class `p`. -/
def runWhile (p : Char → Bool) (s : State L) : Run L Unit :=
  let s₁ := s.peek.2
  match _hpeek : s.peek.1 with
  | none => ⟨[.reached s₁], some ((), s₁)⟩
  | some c =>
    if p c then
      let s₂ := s₁.advance.2
      (runWhile p s₂).after [.reached s₁, .reached s₂]
    else ⟨[.reached s₁], some ((), s₁)⟩
termination_by s.ahead.length
decreasing_by exact State.length_ahead_peek_advance_lt _hpeek

section RunWhile

variable {p : Char → Bool} {s s' : State L} {c : Char}

theorem runWhile_of_none (h : s.peek.1 = none) :
    runWhile p s = ⟨[.reached s.peek.2], some ((), s.peek.2)⟩ := by
  rw [runWhile]
  split
  · rfl
  · next heq => exact absurd (h.symm.trans heq) (by simp)

theorem runWhile_of_pos (h : s.peek.1 = some c) (hc : p c = true) :
    runWhile p s = (runWhile p s.peek.2.advance.2).after
      [.reached s.peek.2, .reached s.peek.2.advance.2] := by
  rw [runWhile]
  split
  · next heq => exact absurd (h.symm.trans heq) (by simp)
  · next heq =>
    obtain rfl := Option.some.inj (h.symm.trans heq)
    rw [if_pos hc]

theorem runWhile_of_neg (h : s.peek.1 = some c) (hc : ¬ p c = true) :
    runWhile p s = ⟨[.reached s.peek.2], some ((), s.peek.2)⟩ := by
  rw [runWhile]
  split
  · rfl
  · next heq =>
    obtain rfl := Option.some.inj (h.symm.trans heq)
    rw [if_neg hc]

theorem length_ahead_runWhile_le (h : (runWhile p s).outcome = some ((), s')) :
    s'.ahead.length ≤ s.ahead.length := by
  fun_induction runWhile p s with
  | case1 s s₁ hpeek =>
    obtain rfl : s₁ = s' := congrArg Prod.snd (Option.some.inj h)
    exact Nat.le_of_eq (congrArg List.length s.ahead_peek)
  | case2 s s₁ c hpeek hp s₂ ih =>
    exact Nat.le_trans (ih h) (Nat.le_of_lt (State.length_ahead_peek_advance_lt hpeek))
  | case3 s s₁ c hpeek hp =>
    obtain rfl : s₁ = s' := congrArg Prod.snd (Option.some.inj h)
    exact Nat.le_of_eq (congrArg List.length s.ahead_peek)

end RunWhile

/-- Takes characters as long as they are of the class `p`. -/
def advanceWhile (p : Char → Bool) : Work L Unit := ⟨runWhile p, length_ahead_runWhile_le⟩

/-! ## Tokens and errors -/

/-- The segment that has been read is a token, which is recorded. -/
def token (kind : TokenKind) (literal : Option Literal) : Work L Item := do
  let lexeme ← slice 0
  let s ← look
  let t : Token := {
    kind, lexeme, literal
    place := s.start.place
    span := ⟨s.start.offset, s.current.offset⟩ }
  record (.tokenRead t.kind t.lexeme t.place)
  pure (.token t)

/-- The segment that has been read is an error, which is recorded. -/
def reject (cause : ErrorCause) : Work L Item := do
  let s ← look
  let e : LexicalError := ⟨cause, s.start.place⟩
  record (.errorFound e.cause e.place)
  pure (.error e)

/-- Behind a dot. -/
def readDot : Work L Item := do
  match ← peek with
  | some c =>
    if c.isDigit then
      advanceWhile Char.isDigit
      reject .invalidNumber
    else if startsName c then
      advanceWhile continuesName
      reject .nameAfterDot
    else token (.symbol .dot) none
  | none => token (.symbol .dot) none

/-- Behind a quotation mark. -/
def readString : Work L Item := do
  advanceWhile (· != '"')
  match ← advance with
  | none => reject .unterminatedString
  | some _ =>
    let value ← slice 1
    token .string (some (.string value))

/-- In front of a misplaced dot behind a numeral. -/
def rejectDot : Work L Item := do
  if (← peekSecond).any continuesName then reject .invalidNumber
  else
    let _ ← advance
    reject .invalidNumber

/-- Behind a numeral. -/
def readValue : Work L Item := do
  let numeral ← slice 0
  match Binary64.parse? numeral with
  | some x => token .number (some (.number x))
  | none =>
    misread numeral
    reject (.described ("Invalid Number: " ++ numeral))

/-- In front of a point that leads into digits. -/
def readFraction : Work L Item := do
  let _ ← advance
  advanceWhile Char.isDigit
  if (← peek) = some '.' then rejectDot
  else readValue

/-- Behind the first digit of a numeral. -/
def readNumber : Work L Item := do
  advanceWhile Char.isDigit
  if (← peek).any startsName then
    advanceWhile continuesName
    reject .nameAfterDigits
  else if (← peek) = some '.' then
    if (← peekSecond).any Char.isDigit then readFraction
    else rejectDot
  else readValue

/-- Behind the first letter of a word. -/
def readWord : Work L Item := do
  advanceWhile continuesName
  let word ← slice 0
  token (.ofWord word) none

/-- Behind a character that spells `short` alone and `long` together with an equals sign. -/
def readPair (short long : Symbol) : Work L Item := do
  let matched ← nextIs '='
  token (.symbol (if matched then long else short)) none

/-- Behind the character `c`, which begins no run. -/
def readSymbol (c : Char) : Work L Item :=
  match Symbol.ofChar? c, Symbol.pair? c with
  | some s, _ => token (.symbol s) none
  | none, some (short, long) => readPair short long
  | none, none => reject (.unexpectedCharacter c)

/-- Behind the character `c`, which begins neither a blank nor a comment. -/
def readItem (c : Char) : Work L Item :=
  if c.isDigit then readNumber
  else if startsName c then readWord
  else if c = '"' then readString
  else if c = '.' then readDot
  else readSymbol c

/-! ## Segments -/

/-- The work delivers an item. -/
def deliver (w : Work L Item) : Work L (Option Item) := do
  let item ← w
  pure (some item)

/-- Behind a slash. -/
def readSlash : Work L (Option Item) := do
  if ← nextIs '/' then
    advanceWhile (· != '\n')
    pure none
  else deliver (token (.symbol .slash) none)

/-- Behind the first character `c` of a segment. -/
def readSegment (c : Char) : Work L (Option Item) :=
  if isBlank c then pure none
  else if c = '/' then readSlash
  else deliver (readItem c)

/-- What a segment means for the question for the next item. -/
inductive Turn
  /-- The question is answered. -/
  | answered (answer : Option Item)
  /-- The segment stands for nothing. -/
  | again

/-- The question is answered by the item that a segment stands for, if it stands for one. -/
def Turn.ofItem? : Option Item → Turn
  | none => again
  | some item => answered (some item)

/-- Reads a segment. -/
def turn : Work L Turn := do
  mark
  match ← advance with
  | none => pure (.answered none)
  | some c =>
    let item? ← readSegment c
    pure (.ofItem? item?)

/-- Unless the text is at its end, a turn takes a character. -/
theorem length_ahead_turn_lt {s s' : State L} {t : Turn} (h : (turn s).outcome = some (t, s'))
    (ht : t ≠ .answered none) : s'.ahead.length < s.ahead.length := by
  obtain ⟨_, s₁, hmark, h⟩ := outcome_bind h
  obtain ⟨c?, s₂, hadvance, h⟩ := outcome_bind h
  have hstart : s₁.ahead.length ≤ s.ahead.length := mark.length_ahead_le hmark
  cases c? with
  | none => exact absurd (outcome_pure h).1.symm ht
  | some c =>
    have hlt : s₂.ahead.length < s₁.ahead.length := by
      have hmoved : s₁.advance = (some c, s₂) := Option.some.inj hadvance
      have htaken := State.length_ahead_advance_lt (congrArg Prod.fst hmoved)
      rwa [hmoved] at htaken
    obtain ⟨item?, s₃, hsegment, h⟩ := outcome_bind h
    have hread := (readSegment c).length_ahead_le hsegment
    rw [← (outcome_pure h).2]
    omega

/-! ## Questions -/

/-- How the question for the next item is answered, from the state `s` on. -/
def nextFrom (s : State L) : Run L (Option Item) :=
  match _hturn : turn s with
  | ⟨moments, some (.again, s')⟩ => (nextFrom s').after moments
  | ⟨moments, some (.answered answer, s')⟩ => ⟨moments, some (answer, s')⟩
  | ⟨moments, none⟩ => ⟨moments, none⟩
termination_by s.ahead.length
decreasing_by exact length_ahead_turn_lt (congrArg Run.outcome _hturn) Turn.noConfusion

section NextFrom

variable {s s' : State L} {answer : Option Item} {item : Item}

theorem nextFrom_of_again (h : (turn s).outcome = some (.again, s')) :
    nextFrom s = (nextFrom s').after (turn s).moments := by
  rw [nextFrom]
  split <;> next heq => rw [heq] at h ⊢; simp_all

theorem nextFrom_of_answered (h : (turn s).outcome = some (.answered answer, s')) :
    nextFrom s = ⟨(turn s).moments, some (answer, s')⟩ := by
  rw [nextFrom]
  split <;> next heq => rw [heq] at h ⊢; simp_all

theorem length_ahead_nextFrom_le (h : (nextFrom s).outcome = some (answer, s')) :
    s'.ahead.length ≤ s.ahead.length := by
  fun_induction nextFrom s with
  | case1 s moments t hturn ih =>
    exact Nat.le_trans (ih h) (turn.length_ahead_le (congrArg Run.outcome hturn))
  | case2 s moments found t hturn =>
    cases h
    exact turn.length_ahead_le (congrArg Run.outcome hturn)
  | case3 s moments hturn => exact absurd h (by simp)

/-- To deliver an item leaves fewer characters. -/
theorem length_ahead_nextFrom_lt (h : (nextFrom s).outcome = some (some item, s')) :
    s'.ahead.length < s.ahead.length := by
  fun_induction nextFrom s with
  | case1 s moments t hturn ih =>
    exact Nat.lt_of_lt_of_le (ih h) (turn.length_ahead_le (congrArg Run.outcome hturn))
  | case2 s moments found t hturn =>
    cases h
    exact length_ahead_turn_lt (congrArg Run.outcome hturn) (by simp)
  | case3 s moments hturn => exact absurd h (by simp)

end NextFrom

/-- The next item, or nothing at the end of the text. -/
def next : Work L (Option Item) := ⟨nextFrom, length_ahead_nextFrom_le⟩

/-- The answers to `n` questions for the next item. -/
def calls : Nat → Work L (List (Option Item))
  | 0 => pure []
  | n + 1 => do
    let answer ← next
    let answers ← calls n
    pure (answer :: answers)

/-! ## Collecting -/

/-- The text is at its end: the tokens, given last one first, are closed and, with the errors,
handed back. -/
def close (tokens : List Token) (errors : List LexicalError) : Work L ScanResult := do
  let s ← look
  let r : ScanResult := ⟨(Token.endOfFile s.current :: tokens).reverse, errors.reverse⟩
  record (.finished r.tokens.length r.errors.length)
  pure r

/-- How the items that are left are collected behind the tokens and errors found before, which are
given last one first. -/
def collect (tokens : List Token) (errors : List LexicalError) (s : State L) : Run L ScanResult :=
  match _hnext : next s with
  | ⟨moments, some (none, s')⟩ => (close tokens errors s').after moments
  | ⟨moments, some (some (.token t), s')⟩ => (collect (t :: tokens) errors s').after moments
  | ⟨moments, some (some (.error e), s')⟩ => (collect tokens (e :: errors) s').after moments
  | ⟨moments, none⟩ => ⟨moments, none⟩
termination_by s.ahead.length
decreasing_by all_goals exact length_ahead_nextFrom_lt (congrArg Run.outcome _hnext)

section Collect

variable {s s' : State L} {tokens : List Token} {errors : List LexicalError}

theorem collect_of_none (h : (next s).outcome = some (none, s')) :
    collect tokens errors s = (close tokens errors s').after (next s).moments := by
  rw [collect]
  split <;> next heq => rw [heq] at h ⊢; simp_all

theorem collect_of_token {t : Token} (h : (next s).outcome = some (some (.token t), s')) :
    collect tokens errors s = (collect (t :: tokens) errors s').after (next s).moments := by
  rw [collect]
  split <;> next heq => rw [heq] at h ⊢; simp_all

theorem collect_of_error {e : LexicalError} (h : (next s).outcome = some (some (.error e), s')) :
    collect tokens errors s = (collect tokens (e :: errors) s').after (next s).moments := by
  rw [collect]
  split <;> next heq => rw [heq] at h ⊢; simp_all

theorem length_ahead_collect_le {r : ScanResult}
    (h : (collect tokens errors s).outcome = some (r, s')) : s'.ahead.length ≤ s.ahead.length := by
  fun_induction collect tokens errors s with
  | case1 tokens errors s moments t hnext =>
    exact Nat.le_trans ((close tokens errors).length_ahead_le h)
      (next.length_ahead_le (congrArg Run.outcome hnext))
  | case2 tokens errors s moments found t hnext ih =>
    exact Nat.le_trans (ih h) (next.length_ahead_le (congrArg Run.outcome hnext))
  | case3 tokens errors s moments found t hnext ih =>
    exact Nat.le_trans (ih h) (next.length_ahead_le (congrArg Run.outcome hnext))
  | case4 tokens errors s moments hnext => exact absurd h (by simp)

end Collect

/-- Finishes a scan: the tokens and the errors that are left, and the end of the text. -/
def finish : Work L ScanResult := ⟨collect [] [], length_ahead_collect_le⟩

end Reader

/-- The events recorded while a whole text is scanned. -/
def scanEvents (source : String) : List Event :=
  (Reader.finish (Reader.State.ofString (.queue _) source)).events

end ScriptLexer

/-
# A reader at work

A text can be read in one pass by a reader that keeps the characters ahead of it in a `Lookahead`
and two cursors beside it: one at the start of the segment being read, and one behind the last
character taken.  Nothing but the reader itself keeps the cursors in step with the characters, and a
segment is taken out of the text by its offsets, which fails if they have come apart from it.

`Work` is a piece of what a reader does.  It says how the reader ends up, and whatever can be seen
of it on the way: each state that it comes to, each slice that it takes out of the text, and each
event that it records.  No work brings a character back that is taken, which is why loops end.
-/
import ScriptLexer.Event
import ScriptLexer.Reader.Lookahead
import ScriptLexer.Reader.Offset

namespace ScriptLexer.Reader

/-- Where a reader stands. -/
structure State (L : Lookahead (Nat × Char)) where
  /-- The text. -/
  source : String
  /-- The characters that are not yet taken, each with its offset in the text. -/
  pending : L.State
  /-- The cursor at the start of the segment that is being read. -/
  start : Cursor
  /-- The cursor behind the last character taken. -/
  current : Cursor

variable {L : Lookahead (Nat × Char)} {α β : Type}

namespace State

/-- A reader at the start of a text. -/
def ofString (L : Lookahead (Nat × Char)) (source : String) : State L where
  source
  pending := L.ofList (charIndices 0 source.toList)
  start := Cursor.start
  current := Cursor.start

/-- The characters that are not yet taken. -/
def ahead (s : State L) : List (Nat × Char) := L.ahead s.pending

/-! ## Movements -/

/-- A new segment starts where the last one ended. -/
def mark (s : State L) : State L := { s with start := s.current }

/-- Looks at the next character. -/
def peek (s : State L) : Option Char × State L :=
  let (item, pending) := L.peek s.pending
  (item.map Prod.snd, { s with pending })

/-- Looks at the character behind the next one. -/
def peekSecond (s : State L) : Option Char × State L :=
  let (item, pending) := L.peekSecond s.pending
  (item.map Prod.snd, { s with pending })

/-- Takes the next character, and moves the cursor behind it. -/
def advance (s : State L) : Option Char × State L :=
  match L.next s.pending with
  | (none, pending) => (none, { s with pending })
  | (some (offset, c), pending) =>
    let current := ⟨offset + c.utf8Size, s.current.place.advance c⟩
    (some c, { s with pending, current })

theorem peek_fst (s : State L) : s.peek.1 = s.ahead.head?.map Prod.snd :=
  congrArg (Option.map Prod.snd) (L.peek_fst s.pending)

theorem ahead_peek (s : State L) : s.peek.2.ahead = s.ahead := L.ahead_peek s.pending

theorem peekSecond_fst (s : State L) : s.peekSecond.1 = s.ahead[1]?.map Prod.snd :=
  congrArg (Option.map Prod.snd) (L.peekSecond_fst s.pending)

theorem ahead_peekSecond (s : State L) : s.peekSecond.2.ahead = s.ahead :=
  L.ahead_peekSecond s.pending

/-- At the end of the text nothing is taken, and the cursor stays where it is. -/
theorem advance_of_nil {s : State L} (h : s.ahead = []) :
    s.advance = (none, { s with pending := (L.next s.pending).2 }) := by
  have hnext : (L.next s.pending).1 = none := (L.next_fst s.pending).trans (congrArg List.head? h)
  rw [advance]
  split <;> next heq => simp_all

theorem advance_of_cons {s : State L} {offset : Nat} {c : Char} {items : List (Nat × Char)}
    (h : s.ahead = (offset, c) :: items) :
    s.advance = (some c, { s with
      pending := (L.next s.pending).2
      current := ⟨offset + c.utf8Size, s.current.place.advance c⟩ }) := by
  have hnext : (L.next s.pending).1 = some (offset, c) :=
    (L.next_fst s.pending).trans (congrArg List.head? h)
  rw [advance]
  split <;> next heq => simp_all

theorem ahead_advance (s : State L) : s.advance.2.ahead = s.ahead.tail := by
  have hnext : L.ahead (L.next s.pending).2 = s.ahead.tail := L.ahead_next s.pending
  rcases hahead : s.ahead with _ | ⟨⟨offset, c⟩, items⟩
  · rw [advance_of_nil hahead, ← hahead]
    exact hnext
  · rw [advance_of_cons hahead, ← hahead]
    exact hnext

theorem length_ahead_advance_le (s : State L) : s.advance.2.ahead.length ≤ s.ahead.length := by
  rw [ahead_advance, List.length_tail]
  exact Nat.sub_le _ _

/-- To take a character leaves fewer. -/
theorem length_ahead_advance_lt {s : State L} {c : Char} (h : s.advance.1 = some c) :
    s.advance.2.ahead.length < s.ahead.length := by
  rw [ahead_advance]
  rcases hahead : s.ahead with _ | ⟨item, items⟩
  · rw [advance_of_nil hahead] at h
    exact absurd h (by simp)
  · exact Nat.lt_succ_self _

/-- So does to take one that was looked at. -/
theorem length_ahead_peek_advance_lt {s : State L} {c : Char} (h : s.peek.1 = some c) :
    s.peek.2.advance.2.ahead.length < s.ahead.length := by
  rw [ahead_advance, ahead_peek]
  rw [peek_fst] at h
  rcases hahead : s.ahead with _ | ⟨item, items⟩
  · rw [hahead] at h
    exact absurd h (by simp)
  · exact Nat.lt_succ_self _

/-- The bytes of the segment that is being read, but for `margin` of them at either end. -/
def range (s : State L) (margin : Nat) : Span :=
  ⟨s.start.offset + margin, s.current.offset - margin⟩

end State

/-! ## Runs -/

/-- What can be seen of a reader. -/
inductive Moment (L : Lookahead (Nat × Char))
  /-- It has come to a state. -/
  | reached (s : State L)
  /-- It takes the segment that it has read out of the text, but for a margin. -/
  | sliced (s : State L) (margin : Nat)
  /-- It comes upon a numeral that is no number. -/
  | misread (numeral : String)
  /-- It records an event. -/
  | recorded (e : Event)

/-- The range that is taken out of the text, if one is. -/
def Moment.range? : Moment L → Option Span
  | sliced s margin => some (s.range margin)
  | reached _ | misread _ | recorded _ => none

/-- The event that is recorded, if one is. -/
def Moment.event? : Moment L → Option Event
  | recorded e => some e
  | reached _ | sliced .. | misread _ => none

/-- How a piece of work goes. -/
structure Run (L : Lookahead (Nat × Char)) (α : Type) where
  /-- What is seen on the way. -/
  moments : List (Moment L)
  /-- The result and the state at the end.  There is none if a slice is not to be had. -/
  outcome : Option (α × State L)

namespace Run

/-- The events that are recorded on the way. -/
def events (r : Run L α) : List Event := r.moments.filterMap Moment.event?

/-- The run with some moments before it. -/
def after (r : Run L α) (moments : List (Moment L)) : Run L α :=
  ⟨moments ++ r.moments, r.outcome⟩

/-- The run and then what comes of its result and its last state. -/
def bind (r : Run L α) (f : α → State L → Run L β) : Run L β :=
  match r with
  | ⟨moments, none⟩ => ⟨moments, none⟩
  | ⟨moments, some (a, s)⟩ => (f a s).after moments

/-- What is done in two parts ends with the end of the second. -/
theorem outcome_bind {r : Run L α} {f : α → State L → Run L β} {t : State L} {b : β}
    (h : (r.bind f).outcome = some (b, t)) :
    ∃ a s, r.outcome = some (a, s) ∧ (f a s).outcome = some (b, t) := by
  rcases r with ⟨moments, _ | ⟨a, s⟩⟩
  · exact absurd h (by simp [bind])
  · exact ⟨a, s, rfl, h⟩

theorem bind_of_outcome {r : Run L α} {a : α} {s : State L} (h : r.outcome = some (a, s))
    (f : α → State L → Run L β) : r.bind f = (f a s).after r.moments := by
  rcases r with ⟨moments, outcome⟩
  obtain rfl : outcome = some (a, s) := h
  rfl

end Run

/-! ## Work -/

/-- A piece of work, begun in some state. -/
structure Work (L : Lookahead (Nat × Char)) (α : Type) where
  /-- How it goes. -/
  run : State L → Run L α
  /-- No character that is taken comes back. -/
  length_ahead_le : ∀ {s s' : State L} {a : α}, (run s).outcome = some (a, s') →
    s'.ahead.length ≤ s.ahead.length

instance : CoeFun (Work L α) fun _ => State L → Run L α := ⟨Work.run⟩

/-- Nothing is done, and there is a result. -/
def Work.pure (a : α) : Work L α where
  run s := ⟨[], some (a, s)⟩
  length_ahead_le h := by
    cases h
    exact Nat.le_refl _

/-- One piece of work, and another one that depends on its result. -/
def Work.bind (w : Work L α) (f : α → Work L β) : Work L β where
  run s := (w s).bind fun a => f a
  length_ahead_le h := by
    obtain ⟨a, t, hw, hf⟩ := Run.outcome_bind h
    exact Nat.le_trans ((f a).length_ahead_le hf) (w.length_ahead_le hw)

instance : Monad (Work L) where
  pure := Work.pure
  bind := Work.bind

theorem outcome_bind {w : Work L α} {f : α → Work L β} {s t : State L} {b : β}
    (h : ((w >>= f) s).outcome = some (b, t)) :
    ∃ a s', (w s).outcome = some (a, s') ∧ (f a s').outcome = some (b, t) :=
  Run.outcome_bind h

theorem outcome_pure {s s' : State L} {a b : α}
    (h : ((pure a : Work L α) s).outcome = some (b, s')) : a = b ∧ s = s' :=
  Prod.mk.inj (Option.some.inj h)

/-- A movement that takes at most one character, after which the state can be seen. -/
def move (f : State L → α × State L) (hf : ∀ s, (f s).2.ahead.length ≤ s.ahead.length) :
    Work L α where
  run s := ⟨[.reached (f s).2], some (f s)⟩
  length_ahead_le {s s' a} h := by
    obtain rfl : (f s).2 = s' := congrArg Prod.snd (Option.some.inj h)
    exact hf s

/-- The state, as it is. -/
def look : Work L (State L) where
  run s := ⟨[], some (s, s)⟩
  length_ahead_le h := by
    cases h
    exact Nat.le_refl _

/-- The segment that has been read, but for a margin, as a text. -/
def slice (margin : Nat) : Work L String where
  run s := ⟨[.sliced s margin], (slice? s.source (s.range margin)).map (·, s)⟩
  length_ahead_le h := by
    obtain ⟨text, -, htext⟩ := Option.map_eq_some_iff.1 h
    cases htext
    exact Nat.le_refl _

/-- The moment is seen, and nothing else happens. -/
def note (m : Moment L) : Work L Unit where
  run s := ⟨[m], some ((), s)⟩
  length_ahead_le h := by
    cases h
    exact Nat.le_refl _

/-- The numeral is no number. -/
def misread (numeral : String) : Work L Unit := note (.misread numeral)

/-- The event is recorded. -/
def record (e : Event) : Work L Unit := note (.recorded e)

end ScriptLexer.Reader

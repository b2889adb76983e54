/-
# The record of a scan

A reader records events on its way, wherever it makes a token or finds an error, and they are handed
to whoever follows the scan apart from its items.  This file shows that the two say the same.  Each
part of the program records the item that it delivers, once, or nothing if it delivers none
(`Announces`, `Silent`), on whichever path it goes.  So a question records its answer
(`records_next`), and collecting records the items that are left, each once and in their order, and
then how many tokens and errors are handed back (`events_collect`).
-/
import ScriptLexer.Proofs.Reader.Session

namespace ScriptLexer

/-! ## What is recorded of an item -/

/-- The event that records an item. -/
def Event.ofItem : Item → Event
  | .token t => .tokenRead t.kind t.lexeme t.place
  | .error e => .errorFound e.cause e.place

/-- What an event says: how weighty it is, in which words, and with which data. -/
structure Entry where
  /-- The weight. -/
  level : Level
  /-- The words. -/
  message : String
  /-- The data by name. -/
  fields : List (String × FieldValue)
deriving DecidableEq, Repr

/-- What an event says. -/
def Event.entry (e : Event) : Entry := ⟨e.level, e.message, e.fields⟩

/-- What is to be recorded of an item: a token by its kind, its lexeme and its place, and an error
by its words and its place. -/
def Item.entry : Item → Entry
  | .token t => ⟨.trace, "token", [("kind", .plain t.kind.name), ("lexeme", .quoted t.lexeme),
      ("line", .count t.place.line), ("column", .count t.place.column)]⟩
  | .error e => ⟨.debug, e.message, [("line", .count e.place.line),
      ("column", .count e.place.column)]⟩

/-- What is to be recorded of a result: how many tokens and errors there are in it. -/
def ScanResult.entry (r : ScanResult) : Entry :=
  ⟨.debug, "finished scanning", [("tokens", .count r.tokens.length),
    ("errors", .count r.errors.length)]⟩

lemma Event.entry_ofItem (item : Item) : (Event.ofItem item).entry = item.entry := by
  cases item <;> rfl

lemma Event.map_entry_ofItem (items : List Item) :
    (items.map Event.ofItem).map Event.entry = items.map Item.entry := by
  rw [List.map_map]
  exact congrArg (List.map · items) (funext Event.entry_ofItem)

namespace Reader

variable {L : Lookahead (Nat × Char)} {α β : Type}

lemma Run.events_after (r : Run L α) (moments : List (Moment L)) :
    (r.after moments).events = moments.filterMap Moment.event? ++ r.events :=
  List.filterMap_append

/-! ## What work records -/

/-- Wherever the work is begun, what it has recorded is known from its result. -/
structure Records (w : Work L α) (f : α → List Event) : Prop where
  /-- If it comes to the result `a`, it has recorded the events `f a`. -/
  events_eq : ∀ {s s' : State L} {a : α}, (w s).outcome = some (a, s') → (w s).events = f a

/-- The work records nothing. -/
def Silent (w : Work L α) : Prop := Records w fun _ => []

/-- The work records the item that it delivers, and nothing else. -/
def Announces (w : Work L Item) : Prop := Records w fun item => [.ofItem item]

section Bind

variable {w : Work L α} {g : α → Work L β} {f : β → List Event}

/-- What the first part records stands in front of what the second part records. -/
lemma events_bind {s s' : State L} {a : α} (h : (w s).outcome = some (a, s'))
    (g : α → Work L β) : ((w >>= g) s).events = (w s).events ++ (g a s').events := by
  have hrun : (w >>= g) s = (g a s').after (w s).moments := Run.bind_of_outcome h _
  rw [hrun, Run.events_after]
  rfl

lemma Silent.bind (hw : Silent w) (hg : ∀ a, Records (g a) f) : Records (w >>= g) f where
  events_eq h := by
    obtain ⟨a, s', ha, hb⟩ := outcome_bind h
    rw [events_bind ha, hw.events_eq ha, (hg a).events_eq hb]
    rfl

/-- What is handed on in another form is what was recorded. -/
lemma Records.map {e : α → List Event} {φ : α → β} (hw : Records w e)
    (hφ : ∀ a, e a = f (φ a)) : Records (w >>= fun a => pure (φ a)) f where
  events_eq h := by
    obtain ⟨a, s', ha, hb⟩ := outcome_bind h
    rw [events_bind ha, hw.events_eq ha, hφ, (outcome_pure hb).1]
    exact List.append_nil _

lemma records_pure {b : β} (hb : f b = []) : Records (pure b : Work L β) f where
  events_eq h := by
    rw [← (outcome_pure h).1, hb]
    rfl

end Bind

/-! ## Characters -/

lemma silent_move {f : State L → α × State L}
    {hf : ∀ s, (f s).2.ahead.length ≤ s.ahead.length} : Silent (move f hf) := ⟨fun _ => rfl⟩

lemma silent_peek : Silent (peek : Work L (Option Char)) := silent_move

lemma silent_peekSecond : Silent (peekSecond : Work L (Option Char)) := silent_move

lemma silent_advance : Silent (advance : Work L (Option Char)) := silent_move

lemma silent_look : Silent (look : Work L (State L)) := ⟨fun _ => rfl⟩

lemma silent_slice (margin : Nat) : Silent (slice margin : Work L String) := ⟨fun _ => rfl⟩

lemma silent_misread (numeral : String) : Silent (misread numeral : Work L Unit) := ⟨fun _ => rfl⟩

lemma silent_nextIs (c : Char) : Silent (nextIs c : Work L Bool) := by
  refine silent_peek.bind fun d? => ?_
  split
  · split
    · exact silent_advance.bind fun _ => records_pure rfl
    · exact records_pure rfl
  · exact records_pure rfl

lemma silent_advanceWhile (p : Char → Bool) : Silent (advanceWhile p : Work L Unit) := by
  refine ⟨fun {s s' a} h => ?_⟩
  show (runWhile p s).events = []
  change (runWhile p s).outcome = some (a, s') at h
  fun_induction runWhile p s with
  | case1 => rfl
  | case2 s s₁ c hpeek hp s₂ ih => exact (Run.events_after _ _).trans (ih h)
  | case3 => rfl

/-! ## Tokens and errors -/

lemma records_record {e : Event} {b : β} {f : β → List Event} (hb : f b = [e]) :
    Records (record e >>= fun _ => pure b : Work L β) f where
  events_eq h := by
    obtain ⟨_, t, -, h⟩ := outcome_bind h
    rw [← (outcome_pure h).1, hb]
    rfl

lemma announces_token (kind : TokenKind) (literal : Option Literal) :
    Announces (token kind literal : Work L Item) :=
  (silent_slice 0).bind fun _ => silent_look.bind fun _ => records_record rfl

lemma announces_reject (cause : ErrorCause) : Announces (reject cause : Work L Item) :=
  silent_look.bind fun _ => records_record rfl

lemma announces_readDot : Announces (readDot : Work L Item) := by
  refine silent_peek.bind fun c? => ?_
  split
  · split
    · exact (silent_advanceWhile _).bind fun _ => announces_reject _
    split
    · exact (silent_advanceWhile _).bind fun _ => announces_reject _
    · exact announces_token _ _
  · exact announces_token _ _

lemma announces_readString : Announces (readString : Work L Item) := by
  refine (silent_advanceWhile _).bind fun _ => silent_advance.bind fun c? => ?_
  split
  · exact announces_reject _
  · exact (silent_slice 1).bind fun _ => announces_token _ _

lemma announces_rejectDot : Announces (rejectDot : Work L Item) := by
  refine silent_peekSecond.bind fun c? => ?_
  split
  · exact announces_reject _
  · exact silent_advance.bind fun _ => announces_reject _

lemma announces_readValue : Announces (readValue : Work L Item) := by
  refine (silent_slice 0).bind fun numeral => ?_
  split
  · exact announces_token _ _
  · exact (silent_misread _).bind fun _ => announces_reject _

lemma announces_readFraction : Announces (readFraction : Work L Item) := by
  refine silent_advance.bind fun _ => (silent_advanceWhile _).bind fun _ =>
    silent_peek.bind fun c? => ?_
  split
  · exact announces_rejectDot
  · exact announces_readValue

lemma announces_readNumber : Announces (readNumber : Work L Item) := by
  refine (silent_advanceWhile _).bind fun _ => silent_peek.bind fun c? => ?_
  split
  · exact (silent_advanceWhile _).bind fun _ => announces_reject _
  refine silent_peek.bind fun c? => ?_
  split
  · refine silent_peekSecond.bind fun d? => ?_
    split
    · exact announces_readFraction
    · exact announces_rejectDot
  · exact announces_readValue

lemma announces_readWord : Announces (readWord : Work L Item) :=
  (silent_advanceWhile _).bind fun _ => (silent_slice 0).bind fun _ => announces_token _ _

lemma announces_readPair (short long : Symbol) : Announces (readPair short long : Work L Item) :=
  (silent_nextIs _).bind fun _ => announces_token _ _

lemma announces_readSymbol (c : Char) : Announces (readSymbol c : Work L Item) := by
  rw [readSymbol]
  split
  · exact announces_token _ _
  · exact announces_readPair _ _
  · exact announces_reject _

lemma announces_readItem (c : Char) : Announces (readItem c : Work L Item) := by
  rw [readItem]
  split
  · exact announces_readNumber
  split
  · exact announces_readWord
  split
  · exact announces_readString
  split
  · exact announces_readDot
  · exact announces_readSymbol c

/-! ## Questions -/

/-- The events that record what a segment or a question delivers, if it delivers anything. -/
def eventsOfAnswer (answer : Option Item) : List Event := (answer.map Event.ofItem).toList

lemma records_deliver {w : Work L Item} (hw : Announces w) :
    Records (deliver w) eventsOfAnswer :=
  Records.map hw fun _ => rfl

lemma records_readSlash : Records (readSlash : Work L (Option Item)) eventsOfAnswer := by
  refine (silent_nextIs _).bind fun b => ?_
  split
  · exact (silent_advanceWhile _).bind fun _ => records_pure rfl
  · exact records_deliver (announces_token _ _)

/-- A segment is recorded if it stands for an item, and blanks and comments leave no trace. -/
lemma records_readSegment (c : Char) :
    Records (readSegment c : Work L (Option Item)) eventsOfAnswer := by
  rw [readSegment]
  split
  · exact records_pure rfl
  split
  · exact records_readSlash
  · exact records_deliver (announces_readItem c)

/-- The events that a turn has recorded. -/
def eventsOfTurn : Turn → List Event
  | .answered answer => eventsOfAnswer answer
  | .again => []

lemma eventsOfTurn_ofItem? (item? : Option Item) :
    eventsOfTurn (.ofItem? item?) = eventsOfAnswer item? := by
  cases item? <;> rfl

lemma records_turn : Records (turn : Work L Turn) eventsOfTurn := by
  refine silent_move.bind fun _ => silent_advance.bind fun c? => ?_
  split
  · exact records_pure rfl
  · exact (records_readSegment _).map fun item? => (eventsOfTurn_ofItem? item?).symm

/-- A question records its answer, and nothing at the end of the text. -/
lemma records_next : Records (next : Work L (Option Item)) eventsOfAnswer := by
  refine ⟨fun {s s' answer} h => ?_⟩
  show (nextFrom s).events = _
  change (nextFrom s).outcome = some (answer, s') at h
  fun_induction nextFrom s with
  | case1 s moments t hturn ih =>
    have hsilent := records_turn.events_eq (congrArg Run.outcome hturn)
    rw [hturn] at hsilent
    rw [Run.events_after, ih h]
    exact congrArg (· ++ _) hsilent
  | case2 s moments found t hturn =>
    have hrecorded := records_turn.events_eq (congrArg Run.outcome hturn)
    rw [hturn] at hrecorded
    obtain ⟨rfl, rfl⟩ := Prod.mk.inj (Option.some.inj h)
    exact hrecorded
  | case3 s moments hturn => exact absurd h (by simp)

lemma records_calls (n : Nat) :
    Records (calls n : Work L (List (Option Item))) (List.flatMap eventsOfAnswer) := by
  induction n with
  | zero => exact records_pure rfl
  | succ n ih =>
    refine ⟨fun {s s' answers} h => ?_⟩
    obtain ⟨answer, s₁, hnext, h⟩ := outcome_bind h
    obtain ⟨others, s₂, hothers, h⟩ := outcome_bind h
    obtain ⟨rfl, rfl⟩ := outcome_pure h
    rw [calls, events_bind hnext, events_bind hothers, records_next.events_eq hnext,
      ih.events_eq hothers, List.flatMap_cons]
    exact congrArg (_ ++ ·) (List.append_nil _)

/-! ## Collecting -/

lemma records_close (tokens : List Token) (errors : List LexicalError) :
    Records (close tokens errors : Work L ScanResult)
      fun r => [.finished r.tokens.length r.errors.length] :=
  silent_look.bind fun _ => records_record rfl

variable {source : String}

/-- Collecting records the items that are left, and then how much is handed back.  The induction is
that of the scan, which the reader follows. -/
lemma events_collect (k : Scan) (tokens : List Token) (errors : List LexicalError) :
    ∀ {s : State L}, Follows source k s → (collect tokens errors s).events =
      k.items.map Event.ofItem ++ [.finished (k.collect tokens errors).tokens.length
        (k.collect tokens errors).errors.length] := by
  fun_induction Scan.collect k tokens errors with
  | case1 k tokens errors k' hnext =>
    intro s h
    obtain ⟨-, _, s', hend, rfl, hfollows⟩ := endsIn_next h
    rw [hnext] at hend hfollows
    obtain ⟨-, r, t, hclose, rfl⟩ := endsIn_close tokens errors hfollows
    rw [collect_of_none hend, Run.events_after, (records_close _ _).events_eq hclose,
      Scan.items_of_next_eq_none hnext]
    exact congrArg (· ++ _) (records_next.events_eq hend)
  | case2 k tokens errors t k' hnext ih =>
    intro s h
    obtain ⟨-, _, s', hend, rfl, hfollows⟩ := endsIn_next h
    rw [hnext] at hend hfollows
    rw [collect_of_token hend, Run.events_after, ih hfollows, Scan.items_of_next_eq_some hnext]
    exact congrArg (· ++ _) (records_next.events_eq hend)
  | case3 k tokens errors e k' hnext ih =>
    intro s h
    obtain ⟨-, _, s', hend, rfl, hfollows⟩ := endsIn_next h
    rw [hnext] at hend hfollows
    rw [collect_of_error hend, Run.events_after, ih hfollows, Scan.items_of_next_eq_some hnext]
    exact congrArg (· ++ _) (records_next.events_eq hend)

/-! ## The record -/

lemma map_entry_eventsOfAnswer (answer : Option Item) :
    (eventsOfAnswer answer).map Event.entry = (answer.map Item.entry).toList := by
  cases answer with
  | none => rfl
  | some item => exact congrArg List.singleton (Event.entry_ofItem item)

/-- **The record mirrors what is delivered.**  However the characters ahead are kept, and however
many questions a reader was asked, they have recorded their answers, one entry for an item and none
at the end of the text, and the next question records its own.  Finishing records the items that
were not asked for, one entry for each in their order, and last of all how many tokens, that which
closes the text among them, and how many errors it hands back.  Nothing else is recorded. -/
theorem record_of_calls (L : Lookahead (Nat × Char)) (source : String) (n : Nat) :
    ∃ s, (calls n (State.ofString L source)).outcome
        = some (((Scan.ofString source).calls n).1, s) ∧
      (calls n (State.ofString L source)).events.map Event.entry
        = ((Scan.ofString source).calls n).1.flatMap (fun answer =>
            (answer.map Item.entry).toList) ∧
      (∃ answer s', (next s).outcome = some (answer, s') ∧
        answer = ((Scan.ofString source).calls n).2.next.1 ∧
        (next s).events.map Event.entry = (answer.map Item.entry).toList) ∧
      ∃ result s', (finish s).outcome = some (result, s') ∧
        result = ((Scan.ofString source).calls n).2.finish ∧
        (finish s).events.map Event.entry
          = ((Scan.ofString source).items.drop n).map Item.entry ++ [result.entry] := by
  obtain ⟨-, _, s, hend, rfl, hfollows⟩ := endsIn_calls n (follows_ofString L source)
  obtain ⟨-, _, s₁, hnext, rfl, -⟩ := endsIn_next hfollows
  obtain ⟨-, _, s₂, hfinish, rfl⟩ := endsIn_finish hfollows
  refine ⟨s, hend, ?_, ⟨_, s₁, hnext, rfl, ?_⟩, _, s₂, hfinish, rfl, ?_⟩
  · rw [(records_calls n).events_eq hend, List.map_flatMap]
    exact congrArg (List.flatMap · _) (funext map_entry_eventsOfAnswer)
  · rw [records_next.events_eq hnext, map_entry_eventsOfAnswer]
  · have hevents := events_collect _ [] [] hfollows
    have hitems := Scan.items_calls (Scan.ofString source) n
    show (collect [] [] s).events.map Event.entry = _
    rw [hevents, hitems, List.map_append, Event.map_entry_ofItem]
    rfl

/-- Behind a name, an error in the second line is recorded by the question that it answers, and by
finishing if this question is not asked; the blanks and the comment leave no trace. -/
theorem record_of_calls_behind_name :
    ∃ s, (calls 1 (State.ofString (.queue _) "a // b\n@")).outcome
        = some ([some (.token ⟨.identifier, "a", none, ⟨1, 1⟩, ⟨0, 1⟩⟩)], s) ∧
      (calls 1 (State.ofString (.queue _) "a // b\n@")).events.map Event.entry =
        [⟨.trace, "token", [("kind", .plain "Identifier"), ("lexeme", .quoted "a"),
          ("line", .count 1), ("column", .count 1)]⟩] ∧
      (∃ s', (next s).outcome = some (some (.error ⟨.unexpectedCharacter '@', ⟨2, 1⟩⟩), s') ∧
        (next s).events.map Event.entry =
          [⟨.debug, "Unexpected character: @", [("line", .count 2), ("column", .count 1)]⟩]) ∧
      ∃ s', (finish s).outcome = some (⟨[⟨.endOfFile, "", none, ⟨2, 2⟩, ⟨8, 8⟩⟩],
          [⟨.unexpectedCharacter '@', ⟨2, 1⟩⟩]⟩, s') ∧
        (finish s).events.map Event.entry =
          [⟨.debug, "Unexpected character: @", [("line", .count 2), ("column", .count 1)]⟩,
            ⟨.debug, "finished scanning", [("tokens", .count 1), ("errors", .count 1)]⟩] := by
  have hcalls : ((Scan.ofString "a // b\n@").calls 1).1
      = [some (.token ⟨.identifier, "a", none, ⟨1, 1⟩, ⟨0, 1⟩⟩)] := by decide +kernel
  have hnext : ((Scan.ofString "a // b\n@").calls 1).2.next.1
      = some (.error ⟨.unexpectedCharacter '@', ⟨2, 1⟩⟩) := by decide +kernel
  have hfinish : ((Scan.ofString "a // b\n@").calls 1).2.finish
      = ⟨[⟨.endOfFile, "", none, ⟨2, 2⟩, ⟨8, 8⟩⟩], [⟨.unexpectedCharacter '@', ⟨2, 1⟩⟩]⟩ := by
    decide +kernel
  have hitems : (Scan.ofString "a // b\n@").items.drop 1
      = [.error ⟨.unexpectedCharacter '@', ⟨2, 1⟩⟩] := by decide +kernel
  obtain ⟨s, hend, hevents, ⟨_, s₁, hanswer, rfl, hrecord⟩, _, s₂, hresult, rfl, hrest⟩ :=
    record_of_calls (.queue _) "a // b\n@" 1
  rw [hcalls] at hend hevents
  rw [hnext] at hanswer hrecord
  rw [hfinish] at hresult hrest
  rw [hitems] at hrest
  exact ⟨s, hend, hevents, ⟨s₁, hanswer, hrecord⟩, s₂, hresult, hrest⟩

end Reader

end ScriptLexer

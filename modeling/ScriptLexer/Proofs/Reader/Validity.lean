/-
# Valid states

What should hold of a reader wherever it stands (`State.Valid`), and of all that can be seen of it
(`Moment.Valid`).  What is proved of a piece of work is that it ends (`Run.EndsIn`) with whatever is
seen valid, and this is put together from the pieces (`Run.EndsIn.bind`).
-/
import ScriptLexer.Reader.Work
import ScriptLexer.Proofs.Reader.Offset
import Mathlib.Algebra.Group.Nat.Defs

namespace ScriptLexer.Reader

variable {L : Lookahead (Nat × Char)} {α β : Type}

/-- What holds of a reader in the text `source` wherever it stands. -/
structure State.Valid (s : State L) (source : String) : Prop where
  /-- The text is that with which the reader began. -/
  source_eq : s.source = source
  /-- The segment does not start behind the last character taken. -/
  start_le : s.start.offset ≤ s.current.offset
  /-- The last character taken does not lie behind the text. -/
  current_le : s.current.offset ≤ source.utf8ByteSize
  /-- The segment starts between two characters. -/
  start_boundary : IsBoundary source s.start.offset
  /-- The cursor stands between two characters. -/
  current_boundary : IsBoundary source s.current.offset
  /-- The cursor stands at the next character, or at the end of the text if there is none. -/
  offset_eq : s.current.offset = (s.ahead.head?.map Prod.fst).getD source.utf8ByteSize
  /-- Of the characters of the text the first ones are taken and the others are ahead.  The cursor
  has moved over the bytes of those taken, and line and column add up to no more than two more than
  their number. -/
  taken : ∃ n ≤ source.toList.length, s.ahead = (charIndices 0 source.toList).drop n ∧
    s.current.offset = byteSize (source.toList.take n) ∧
    s.current.place.line + s.current.place.column ≤ n + 2
  /-- In words of `w` bits, of which one is left over by the size of the text, there is room for the
  line and the column. -/
  counters_lt : ∀ w, 2 ≤ w → source.utf8ByteSize < 2 ^ (w - 1) →
    s.current.place.line + s.current.place.column < 2 ^ w

/-- What is seen is as it should be: states are valid, slices lie in the text between characters of
it, and numerals are numbers. -/
def Moment.Valid (source : String) : Moment L → Prop
  | reached s => s.Valid source
  | sliced s margin => s.Valid source ∧ (s.range margin).IsSliceOf source
  | misread _ => False
  | recorded _ => True

/-! ## Work that ends -/

/-- The run ends in a way of which `Q` holds, and all that is seen on the way is as it should be. -/
structure Run.EndsIn (source : String) (r : Run L α) (Q : α → State L → Prop) : Prop where
  /-- What is seen is as it should be. -/
  valid : ∀ m ∈ r.moments, m.Valid source
  /-- There is an end. -/
  ends : ∃ a s, r.outcome = some (a, s) ∧ Q a s

namespace Run.EndsIn

variable {source : String} {r : Run L α} {s : State L} {Q : α → State L → Prop}
  {R : β → State L → Prop}

lemma after {moments : List (Moment L)} (h : r.EndsIn source Q)
    (hmoments : ∀ m ∈ moments, m.Valid source) : (r.after moments).EndsIn source Q where
  valid m hm := (List.mem_append.1 hm).elim (hmoments m) (h.valid m)
  ends := h.ends

lemma pure {a : α} (h : Q a s) : ((Pure.pure a : Work L α) s).EndsIn source Q where
  valid _ hm := absurd hm List.not_mem_nil
  ends := ⟨a, s, rfl, h⟩

/-- Work ends as its second part does, begun wherever the first part may end. -/
lemma bind {w : Work L α} {f : α → Work L β} (hw : (w s).EndsIn source Q)
    (hf : ∀ a s', Q a s' → (f a s').EndsIn source R) : ((w >>= f) s).EndsIn source R := by
  obtain ⟨hvalid, a, s', hend, ha⟩ := hw
  have hbind : (w >>= f) s = (f a s').after (w s).moments := Run.bind_of_outcome hend _
  rw [hbind]
  exact (hf a s' ha).after hvalid

/-- A run that comes to one state, and ends there. -/
lemma reached {a : α} (hvalid : s.Valid source) (h : Q a s) :
    (⟨[.reached s], some (a, s)⟩ : Run L α).EndsIn source Q where
  valid m hm := by
    obtain rfl := List.mem_singleton.1 hm
    exact hvalid
  ends := ⟨a, s, rfl, h⟩

lemma move {f : State L → α × State L}
    {hf : ∀ s, (f s).2.ahead.length ≤ s.ahead.length} (hvalid : (f s).2.Valid source)
    (h : Q (f s).1 (f s).2) : (move f hf s).EndsIn source Q :=
  .reached hvalid h

/-- To look at the state changes nothing. -/
lemma look_bind {f : State L → Work L β} (h : (f s s).EndsIn source R) :
    ((Reader.look >>= f) s).EndsIn source R := by
  have hlook : (Reader.look s).EndsIn source fun a s' => a = s ∧ s' = s :=
    ⟨fun _ hm => absurd hm List.not_mem_nil, s, s, rfl, rfl, rfl⟩
  refine hlook.bind ?_
  rintro _ _ ⟨rfl, rfl⟩
  exact h

/-- To record an event changes nothing. -/
lemma record_bind {e : Event} {f : Unit → Work L β} (h : (f () s).EndsIn source R) :
    ((record e >>= f) s).EndsIn source R := by
  have hrecord : (record e s).EndsIn source fun _ s' => s' = s := by
    refine ⟨fun m hm => ?_, (), s, rfl, rfl⟩
    obtain rfl := List.mem_singleton.1 hm
    exact trivial
  refine hrecord.bind ?_
  rintro _ _ rfl
  exact h

lemma slice {margin : Nat} {text : String} {Q : String → State L → Prop} (hvalid : s.Valid source)
    (htext : slice? source (s.range margin) = some text) (h : Q text s) :
    (slice margin s).EndsIn source Q := by
  have hslice : (s.range margin).IsSliceOf source := by
    by_contra hne
    rw [slice?, dif_neg hne] at htext
    exact Option.some_ne_none text htext.symm
  refine ⟨fun m hm => ?_, text, s, ?_, h⟩
  · obtain rfl := List.mem_singleton.1 hm
    exact ⟨hvalid, hslice⟩
  · show (slice? s.source (s.range margin)).map (·, s) = _
    rw [hvalid.source_eq, htext]
    rfl

end Run.EndsIn

end ScriptLexer.Reader

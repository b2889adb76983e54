/-
# What is wrong and how it is said

The rules of the language report few causes, and each in its own words.  So the words say the cause:
two errors that are reported in the same words have the same cause, even if other words stand behind
them (`LexicalError.Reported.message_append_inj`).
-/
import ScriptLexer.Proofs.Position

namespace ScriptLexer

/-! ## The words of a cause -/

namespace ErrorCause

/-- The causes whose words are fixed. -/
def fixed : List ErrorCause := [unterminatedString, invalidNumber, nameAfterDot, nameAfterDigits]

/-- The words in front of an unexpected character. -/
def heading : String := "Unexpected character: "

/-- No words begin like others. -/
lemma eq_of_message_prefix {c d : ErrorCause} (hc : c ∈ fixed) (hd : d ∈ fixed)
    (h : c.message.toList <+: d.message.toList) : c = d := by
  have hall : ∀ c ∈ fixed, ∀ d ∈ fixed, c.message.toList <+: d.message.toList → c = d := by
    decide +kernel
  exact hall c hc d hd h

/-- No words begin like those in front of an unexpected character. -/
lemma not_prefix_heading {c : ErrorCause} (hc : c ∈ fixed) :
    ¬ c.message.toList <+: heading.toList ∧ ¬ heading.toList <+: c.message.toList := by
  have hall : ∀ c ∈ fixed, ¬ c.message.toList <+: heading.toList ∧
      ¬ heading.toList <+: c.message.toList := by
    decide
  exact hall c hc

lemma message_unexpectedCharacter (c : Char) :
    (unexpectedCharacter c).message.toList = heading.toList ++ [c] := by
  have h : (unexpectedCharacter c).message = heading ++ String.singleton c := rfl
  rw [h, String.toList_append]
  exact congrArg (heading.toList ++ ·) (String.toList_singleton c)

end ErrorCause

/-- A rule reports an unexpected character, which is no blank, or has fixed words. -/
lemma IsSegment.cause_cases {text rest : List Char} {cause : ErrorCause}
    (h : IsSegment text (.error cause) rest) :
    (∃ c, ¬ Blank c ∧ cause = .unexpectedCharacter c) ∨ cause ∈ ErrorCause.fixed := by
  cases h with
  | unexpected hblank => exact Or.inl ⟨_, hblank, rfl⟩
  | _ => exact Or.inr (by decide)

/-! ## Reported errors -/

namespace LexicalError

/-- An error is reported by a rule. -/
def Reported (e : LexicalError) : Prop := ∃ text rest, IsSegment text (.error e.cause) rest

lemma reported_of_mem {source : String} {e : LexicalError} (h : e ∈ (scan source).errors) :
    e.Reported := by
  rw [errors_scan, mem_filterMap_error?_iff] at h
  obtain ⟨before, p, after, hps, hitem⟩ := exists_piece_of_mem_items h
  have houtcome : p.outcome = .error e.cause := Segment.outcome_of_item?_eq_error hitem
  have hseg := hps.isSegment
  rw [houtcome] at hseg
  exact ⟨_, _, hseg⟩

variable {e f : LexicalError} {v w : List Char}

/-- The words of an error can be told from what follows them, and the cause from the words. -/
lemma Reported.message_append_inj (he : e.Reported) (hf : f.Reported)
    (h : e.message.toList ++ v = f.message.toList ++ w) : e.cause = f.cause ∧ v = w := by
  obtain ⟨_, _, he⟩ := he
  obtain ⟨_, _, hf⟩ := hf
  rw [message, message] at h
  rcases he.cause_cases with ⟨c, -, hc⟩ | hc <;> rcases hf.cause_cases with ⟨d, -, hd⟩ | hd
  · rw [hc, hd, ErrorCause.message_unexpectedCharacter, ErrorCause.message_unexpectedCharacter,
      List.append_assoc, List.append_assoc] at h
    obtain ⟨rfl, hrest⟩ := List.cons.inj (List.append_cancel_left h)
    exact ⟨hc.trans hd.symm, hrest⟩
  · rw [hc, ErrorCause.message_unexpectedCharacter, List.append_assoc] at h
    obtain ⟨hnot, hnot'⟩ := ErrorCause.not_prefix_heading hd
    exact ((List.prefix_or_prefix_of_prefix ⟨_, rfl⟩ ⟨_, h.symm⟩).elim hnot' hnot).elim
  · rw [hd, ErrorCause.message_unexpectedCharacter, List.append_assoc] at h
    obtain ⟨hnot, hnot'⟩ := ErrorCause.not_prefix_heading hc
    exact ((List.prefix_or_prefix_of_prefix ⟨_, rfl⟩ ⟨_, h.symm⟩).elim hnot hnot').elim
  · have hcause : e.cause = f.cause := by
      rcases List.prefix_or_prefix_of_prefix ⟨_, rfl⟩ ⟨_, h.symm⟩ with hprefix | hprefix
      · exact ErrorCause.eq_of_message_prefix hc hd hprefix
      · exact (ErrorCause.eq_of_message_prefix hd hc hprefix).symm
    rw [hcause] at h
    exact ⟨hcause, List.append_cancel_left h⟩

lemma Reported.lineFeed_not_mem (he : e.Reported) : '\n' ∉ e.message.toList := by
  obtain ⟨_, _, he⟩ := he
  rw [message]
  rcases he.cause_cases with ⟨c, hblank, hc⟩ | hc
  · have hne : '\n' ≠ c := by
      rintro rfl
      exact hblank (by decide)
    have hheading : '\n' ∉ ErrorCause.heading.toList := by decide
    rw [hc, ErrorCause.message_unexpectedCharacter]
    simpa [hne] using hheading
  · have hall : ∀ c ∈ ErrorCause.fixed, '\n' ∉ c.message.toList := by decide
    exact hall _ hc

lemma Reported.cause_eq (he : e.Reported) (hf : f.Reported) (h : e.message = f.message) :
    e.cause = f.cause := by
  have happend : e.message.toList ++ [] = f.message.toList ++ [] := by rw [h]
  exact (he.message_append_inj hf happend).1

/-- The words for an open string are those of no other cause. -/
lemma Reported.message_eq_iff (he : e.Reported) :
    e.message = "Unterminated String." ↔ e.cause = .unterminatedString := by
  constructor
  · intro h
    have hopen : Reported ⟨.unterminatedString, e.place⟩ :=
      ⟨['"'], [], .unterminated fun _ hmem => absurd hmem List.not_mem_nil⟩
    exact he.cause_eq hopen h
  · intro h
    rw [message, h]
    rfl

end LexicalError

end ScriptLexer

/-
# Segments and what follows them

The rules look at what follows a segment only to see that a run does not go on: they see its first
character, and a second one only behind a misplaced dot that is left over.  A blank continues no
run.  So a segment stays the same segment in front of any text that begins as before or with a
blank (`IsSegment.of_head`): only a comment needs a line feed for that, and only an open string goes
on for ever.  In particular a blank may be put behind a text (`IsSegment.append_blank`), and nothing
that is put behind it changes a segment that does not reach its end (`IsSegment.append_of_ne_nil`).
A token does not even need what follows it (`IsSegment.alone`), and only in a string can it hold a
blank itself (`IsSegment.not_blank`).
-/
import ScriptLexer.Proofs.Segment.Rules

namespace ScriptLexer

namespace Blank

variable {d : Char}

lemma not_digit (h : Blank d) : ¬ Digit d := fun hd => h.not_wordChar hd.wordChar

lemma not_letter (h : Blank d) : ¬ Letter d := fun hd => h.not_wordChar hd.wordChar

lemma ne_of_mem_marks {c : Char} (h : Blank d) (hc : c ∈ marks) : d ≠ c := by
  have hall : marks.all (fun c => !isBlank c) = true := by decide
  rintro rfl
  have hmark := List.all_eq_true.1 hall d hc
  rw [isBlank_iff.2 h] at hmark
  exact Bool.noConfusion hmark

end Blank

variable {text rest rest' : List Char} {outcome : Outcome}

/-! ## The first character of what follows -/

/-- A run that stops before `rest` still stops before a text that begins as `rest`, or with a
character that does not continue the run. -/
lemma Stops.of_head {p : Char → Prop} (h : Stops p rest)
    (hhead : ∀ d ∈ rest'.head?, ¬ p d ∨ d ∈ rest.head?) : Stops p rest' := by
  intro d hd hpd
  rcases hhead d hd with hnot | hmem
  · exact hnot hpd
  · exact h d hmem hpd

/-- What follows a segment may be exchanged for a text that begins as before, or with a blank,
which has to be a line feed behind a comment.  A misplaced dot that is left over has to lead into
the same character as before, and an open string has nothing behind it. -/
lemma IsSegment.of_head (h : IsSegment text outcome rest)
    (hhead : ∀ d ∈ rest'.head?, (Blank d ∧ (outcome = .nothing → d = '\n')) ∨ d ∈ rest.head?)
    (hdot : ∀ c cs, WordChar c → rest = '.' :: c :: cs → ∃ cs', rest' = '.' :: c :: cs')
    (hopen : outcome = .error .unterminatedString → rest = [] → rest' = []) :
    IsSegment text outcome rest' := by
  -- no rule but that of comments sees a run go on with a blank
  have hstop : ∀ p : Char → Prop, (∀ d, Blank d → ¬ p d) → Stops p rest → Stops p rest' :=
    fun p hp hrest => hrest.of_head fun d hd => (hhead d hd).imp_left fun hb => hp d hb.1
  have hword := hstop WordChar fun _ => Blank.not_wordChar
  have hdigit := hstop Digit fun _ => Blank.not_digit
  have hmark : ∀ c ∈ marks, Stops (· = c) rest → Stops (· = c) rest' :=
    fun c hc => hstop (· = c) fun d hd => hd.ne_of_mem_marks hc
  cases h with
  | blank hb => exact .blank hb
  | comment hbody hrest =>
    refine .comment hbody (hrest.of_head fun d hd => ?_)
    exact (hhead d hd).imp_left fun hb hne => hne (hb.2 rfl)
  | lone hs => exact .lone hs
  | short hp hrest => exact .short hp (hmark _ (by decide) hrest)
  | long hp => exact .long hp
  | slash hrest => exact .slash (hmark _ (by decide) hrest)
  | string hbody => exact .string hbody
  | unterminated hbody =>
    obtain rfl := hopen rfl rfl
    exact .unterminated hbody
  | keyword hrest => exact .keyword (hword hrest)
  | identifier hw hne hrest => exact .identifier hw hne (hword hrest)
  | dotDigits hds hrest => exact .dotDigits hds (hdigit hrest)
  | dotWord hw hrest => exact .dotWord hw (hword hrest)
  | dot hrest => exact .dot (hword hrest)
  | digitsWord hds hw hrest => exact .digitsWord hds hw (hword hrest)
  | number hn hpoint hdig hletter =>
    exact .number hn (hmark _ (by decide) hpoint) (hdigit hdig)
      fun hf => hstop Letter (fun _ => Blank.not_letter) (hletter hf)
  | strayDot hn hrest => exact .strayDot hn (hword hrest)
  | leadingDot hn hc hletter =>
    -- the only rule that sees two characters of what follows
    obtain ⟨cs', rfl⟩ := hdot _ _ hc rfl
    exact .leadingDot hn hc hletter
  | unexpected hblank hnot hmarks => exact .unexpected hblank hnot hmarks

/-- A blank, and whatever stands behind it, may be added to what follows a segment. -/
lemma IsSegment.append_blank {d : Char} (h : IsSegment text outcome rest) (hd : Blank d)
    (hcomment : outcome = .nothing → d = '\n') (hopen : outcome ≠ .error .unterminatedString)
    (more : List Char) : IsSegment text outcome (rest ++ d :: more) := by
  refine h.of_head ?_ ?_ fun h => absurd h hopen
  · intro e he
    cases rest with
    | nil =>
      obtain rfl : d = e := by simpa using he
      exact Or.inl ⟨hd, hcomment⟩
    | cons c cs => exact Or.inr he
  · rintro c cs - rfl
    exact ⟨cs ++ d :: more, rfl⟩

/-- Any text may be added to what follows a segment, if there is something. -/
lemma IsSegment.append_of_ne_nil (h : IsSegment text outcome rest) (hrest : rest ≠ [])
    (more : List Char) : IsSegment text outcome (rest ++ more) := by
  obtain ⟨c, cs, rfl⟩ := List.exists_cons_of_ne_nil hrest
  refine h.of_head (fun d hd => Or.inr hd) ?_ fun _ hnil => absurd hnil hrest
  rintro e es - he
  rw [he]
  exact ⟨es ++ more, rfl⟩

/-! ## Where blanks stand -/

lemma Digits.not_blank {ds : List Char} (h : Digits ds) : ∀ c ∈ ds, ¬ Blank c :=
  fun c hc hb => hb.not_digit (h.2 c hc)

lemma Word.not_blank {w : List Char} (h : Word w) : ∀ c ∈ w, ¬ Blank c :=
  fun c hc hb => hb.not_wordChar (h.2 c hc)

lemma Numeral.not_blank {whole fraction : List Char} (h : Numeral text whole fraction) :
    ∀ c ∈ text, ¬ Blank c := by
  cases h with
  | whole hds => exact hds.not_blank
  | pointed hds hfs =>
    exact List.forall_mem_append.2
      ⟨hds.not_blank, List.forall_mem_cons.2 ⟨by decide, hfs.not_blank⟩⟩

/-- A blank stands alone, in a comment or in a string. -/
lemma IsSegment.not_blank (h : IsSegment text outcome rest) (hnothing : outcome ≠ .nothing)
    (hstring : ∀ value, outcome ≠ .token .string value)
    (hopen : outcome ≠ .error .unterminatedString) : ∀ c ∈ text, ¬ Blank c := by
  have hlone : ∀ p ∈ loneSymbols, ¬ Blank p.1 := by decide
  have hpaired : ∀ p ∈ pairedSymbols, ¬ Blank p.1 := by decide
  have hslash : ¬ Blank '/' := by decide
  have hdot : ¬ Blank '.' := by decide
  have hequals : ¬ Blank '=' := by decide
  cases h with
  | blank => exact absurd rfl hnothing
  | comment => exact absurd rfl hnothing
  | lone hs => simpa using hlone _ hs
  | short hp => simpa using hpaired _ hp
  | long hp => simpa using ⟨hpaired _ hp, hequals⟩
  | slash => simpa using hslash
  | string => exact absurd rfl (hstring _)
  | unterminated => exact absurd rfl hopen
  | keyword => exact (word_spelling _).not_blank
  | identifier hw => exact hw.not_blank
  | dotDigits hds => exact List.forall_mem_cons.2 ⟨hdot, hds.not_blank⟩
  | dotWord hw => exact List.forall_mem_cons.2 ⟨hdot, hw.not_blank⟩
  | dot => simpa using hdot
  | digitsWord hds hw => exact List.forall_mem_append.2 ⟨hds.not_blank, hw.not_blank⟩
  | number hn => exact hn.not_blank
  | strayDot hn => exact List.forall_mem_append.2 ⟨hn.not_blank, by simpa using hdot⟩
  | leadingDot hn => exact hn.not_blank
  | unexpected hblank => simpa using hblank

/-! ## A token alone -/

variable {kind : TokenKind} {literal : Option Literal}

/-- What follows a token may be taken away. -/
lemma IsSegment.alone (h : IsSegment text (.token kind literal) rest) :
    IsSegment text (.token kind literal) [] := by
  cases h with
  | lone hs => exact .lone hs
  | short hp => exact .short hp stops_nil
  | long hp => exact .long hp
  | slash => exact .slash stops_nil
  | string hbody => exact .string hbody
  | keyword => exact .keyword stops_nil
  | identifier hw hne => exact .identifier hw hne stops_nil
  | dot => exact .dot stops_nil
  | number hn => exact .number hn stops_nil stops_nil fun _ => stops_nil

end ScriptLexer

/-
# Printed findings

The tokens and the errors of a text are printed without quotation of any kind, and a string may hold
line feeds, commas and whole lines that look like others.  Still they can be told from what is
printed: the name of a kind ends with the first comma, a string with its second quotation mark, and
any other lexeme holds no blank, so that it ends with the comma before the next blank; the lexeme
decides the value, and numbers end with their digits.  No error holds a line feed.

The step is one line with any text behind it (`Token.Spelled.line_append_inj`,
`LexicalError.Reported.line_append_inj`), and `flatMap_inj` goes on with the lines behind it.
-/
import ScriptLexer.Proofs.CommandLine.Report
import ScriptLexer.Proofs.Lexeme
import ScriptLexer.Proofs.LexicalError
import ScriptLexer.Proofs.Relocation
import Mathlib.Data.List.Nodup

namespace ScriptLexer

/-! ## Fields -/

/-- A field that ends before the first `d` can be told from what follows it. -/
lemma append_cons_inj {d : Char} {xs ys v w : List Char} (hxs : d ∉ xs) (hys : d ∉ ys)
    (h : xs ++ d :: v = ys ++ d :: w) : xs = ys ∧ v = w := by
  have hstop : ∀ v : List Char, Stops (· ≠ d) (d :: v) := fun v => stops_cons.2 (not_not.2 rfl)
  have hne : ∀ {zs : List Char}, d ∉ zs → ∀ c ∈ zs, c ≠ d := by
    rintro zs hzs c hc rfl
    exact hzs hc
  obtain ⟨htake, hdrop⟩ := run_of_stops (fun _ => bne_iff) (hne hxs) (hstop v)
  obtain ⟨htake', hdrop'⟩ := run_of_stops (fun _ => bne_iff) (hne hys) (hstop w)
  rw [h] at htake hdrop
  exact ⟨htake.symm.trans htake', (List.cons.inj (hdrop.symm.trans hdrop')).2⟩

/-- The digits of a number. -/
def digitsOf (n : Nat) : List Char := (toString n).toList

lemma digitsOf_eq (n : Nat) : digitsOf n = Nat.toDigits 10 n := by
  rw [digitsOf, Nat.toString_eq_repr, Nat.repr, String.toList_ofList]

/-- A number can be read from its digits. -/
lemma digitsOf_injective {m n : Nat} (h : digitsOf m = digitsOf n) : m = n := by
  have hread : ∀ n, Nat.ofDigitChars 10 (digitsOf n) 0 = n := by
    intro n
    rw [digitsOf_eq]
    exact Nat.ofDigitChars_toDigits (by decide) (by decide)
  rw [← hread m, h, hread]

lemma digit_of_mem_digitsOf {n : Nat} {c : Char} (h : c ∈ digitsOf n) : Digit c := by
  rw [digitsOf_eq] at h
  exact isDigit_iff.1 (Nat.isDigit_of_mem_toDigits (by decide) (by decide) h)

/-- A number that is followed by something else than a digit can be told from it. -/
lemma digitsOf_append_inj {m n : Nat} {d : Char} {v w : List Char} (hd : ¬ Digit d)
    (h : digitsOf m ++ d :: v = digitsOf n ++ d :: w) : m = n ∧ v = w := by
  have hnot : ∀ n, d ∉ digitsOf n := fun n hmem => hd (digit_of_mem_digitsOf hmem)
  obtain ⟨hdigits, hrest⟩ := append_cons_inj (hnot m) (hnot n) h
  exact ⟨digitsOf_injective hdigits, hrest⟩

/-- If each line can be told from what follows it, so can all of them. -/
lemma flatMap_inj {α β : Type} {line : α → List Char} {f : α → β} {P : α → Prop}
    (hne : ∀ a, line a ≠ [])
    (hline : ∀ {a b v w}, P a → P b → line a ++ v = line b ++ w → f a = f b ∧ v = w)
    {xs ys : List α} (hxs : ∀ a ∈ xs, P a) (hys : ∀ b ∈ ys, P b)
    (h : xs.flatMap line = ys.flatMap line) : xs.map f = ys.map f := by
  induction xs generalizing ys with
  | nil =>
    cases ys with
    | nil => rfl
    | cons b ys => exact absurd (List.append_eq_nil_iff.1 h.symm).1 (hne b)
  | cons a xs ih =>
    cases ys with
    | nil => exact absurd (List.append_eq_nil_iff.1 h).1 (hne a)
    | cons b ys =>
      rw [List.forall_mem_cons] at hxs hys
      obtain ⟨hfirst, hrest⟩ := hline hxs.1 hys.1 h
      rw [List.map_cons, List.map_cons, hfirst, ih hxs.2 hys.2 hrest]

/-! ## Kinds -/

namespace TokenKind

/-- Every kind once. -/
def all : List TokenKind :=
  Symbol.all.map symbol ++ [identifier, string, number] ++ Keyword.all.map keyword ++ [endOfFile]

lemma mem_all (k : TokenKind) : k ∈ all := by
  cases k with
  | symbol s => cases s <;> decide
  | keyword w => cases w <;> decide
  | _ => decide

lemma name_injective {k l : TokenKind} (h : k.name = l.name) : k = l := by
  have hnodup : (all.map name).Nodup := by decide
  exact List.inj_on_of_nodup_map hnodup (mem_all k) (mem_all l) h

lemma comma_not_mem_name (k : TokenKind) : ',' ∉ k.name.toList := by
  have hall : ∀ k ∈ all, ',' ∉ k.name.toList := by decide
  exact hall k (mem_all k)

end TokenKind

/-! ## Lines of tokens -/

namespace Token

/-- A token is spelled by its rule, or it closes a text. -/
def Spelled (t : Token) : Prop :=
  IsSegment t.lexeme.toList (.token t.kind t.literal) [] ∨ t.reading = .token .endOfFile "" none

lemma spelled_of_mem {source : String} {t : Token} (h : t ∈ (scan source).tokens) : t.Spelled := by
  rw [tokens_scan, List.mem_append, List.mem_singleton] at h
  rcases h with hbody | rfl
  · exact Or.inl (isSegment_of_mem_body hbody)
  · exact Or.inr rfl

variable {t u : Token} {v w : List Char}

/-- Tokens of one kind and one lexeme have one value. -/
lemma Spelled.literal_eq (ht : t.Spelled) (hu : u.Spelled) (hkind : t.kind = u.kind)
    (hlexeme : t.lexeme = u.lexeme) : t.literal = u.literal := by
  rcases ht with ht | ht <;> rcases hu with hu | hu
  · -- the rules leave no choice
    obtain ⟨c, cs, hcs, hfirst⟩ := ht.exists_first
    obtain ⟨d, ds, hds, hfirst'⟩ := hu.exists_first
    rw [hlexeme, hds] at hcs
    obtain ⟨rfl, rfl⟩ := List.cons.inj hcs
    rw [hfirst'] at hfirst
    exact (Outcome.token.inj (Segment.mk.inj hfirst).2.1).2.symm
  · obtain ⟨hclose, -, -⟩ := Reading.token.inj hu
    exact absurd (hkind.trans hclose) ht.kind_ne_endOfFile
  · obtain ⟨hclose, -, -⟩ := Reading.token.inj ht
    exact absurd (hkind.symm.trans hclose) hu.kind_ne_endOfFile
  · exact (Reading.token.inj (ht.trans hu.symm)).2.2

/-- The lexeme of a string is put between quotation marks and holds no other. -/
lemma Spelled.exists_body (ht : t.Spelled) (hkind : t.kind = .string) :
    ∃ body, '"' ∉ body ∧ t.lexeme.toList = '"' :: (body ++ ['"']) := by
  rcases ht with ht | ht
  · rw [hkind] at ht
    generalize t.lexeme.toList = text at ht
    generalize t.literal = literal at ht
    cases ht with
    | @string body _ hbody => exact ⟨body, fun hmem => hbody _ hmem rfl, rfl⟩
  · obtain ⟨hclose, -, -⟩ := Reading.token.inj ht
    rw [hkind] at hclose
    exact TokenKind.noConfusion hclose

/-- No other lexeme holds a space. -/
lemma Spelled.space_not_mem (ht : t.Spelled) (hkind : t.kind ≠ .string) :
    ' ' ∉ t.lexeme.toList := by
  rcases ht with ht | ht
  · have hnot := ht.not_blank (by simp) (by simp [hkind]) (by simp)
    exact fun hmem => hnot _ hmem (by decide)
  · obtain ⟨-, hempty, -⟩ := Reading.token.inj ht
    rw [hempty]
    simp

/-- A lexeme can be told from what follows it in a line. -/
lemma Spelled.lexeme_append_inj (ht : t.Spelled) (hu : u.Spelled) (hkind : t.kind = u.kind)
    (h : t.lexeme.toList ++ (", Literal: ".toList ++ v)
      = u.lexeme.toList ++ (", Literal: ".toList ++ w)) :
    t.lexeme = u.lexeme ∧ v = w := by
  rw [← String.toList_inj]
  by_cases hstring : t.kind = .string
  · obtain ⟨body, hbody, hlexeme⟩ := ht.exists_body hstring
    obtain ⟨body', hbody', hlexeme'⟩ := hu.exists_body (hkind.symm.trans hstring)
    rw [hlexeme, hlexeme', List.cons_append, List.cons_append, List.append_assoc,
      List.append_assoc, List.singleton_append, List.singleton_append] at h
    obtain ⟨rfl, hrest⟩ := append_cons_inj hbody hbody' (List.cons.inj h).2
    exact ⟨hlexeme.trans hlexeme'.symm, List.append_cancel_left hrest⟩
  · -- the comma behind the lexeme is the last character before a space
    have hspace : ∀ {t : Token}, ' ' ∉ t.lexeme.toList → ' ' ∉ t.lexeme.toList ++ [','] := by
      intro t hnot
      simpa using hnot
    have hsplit : ∀ (t : Token) (v : List Char), t.lexeme.toList ++ (", Literal: ".toList ++ v)
        = (t.lexeme.toList ++ [',']) ++ ' ' :: ("Literal: ".toList ++ v) := by
      intro t v
      rw [List.append_assoc]
      rfl
    rw [hsplit, hsplit] at h
    obtain ⟨hlexeme, hrest⟩ := append_cons_inj (hspace (ht.space_not_mem hstring))
      (hspace (hu.space_not_mem (hkind ▸ hstring))) h
    exact ⟨List.append_cancel_right hlexeme, List.append_cancel_left hrest⟩

/-- The line that shows a token, with the line feed that ends it. -/
def line (t : Token) : List Char := (t.text ++ "\n").toList

lemma line_append (t : Token) (v : List Char) :
    t.line ++ v = "Type: ".toList ++ (t.kind.name.toList ++ ',' :: (" Lexeme: ".toList ++
      (t.lexeme.toList ++ (", Literal: ".toList ++ (((t.literal.map Literal.text).getD "nil").toList
        ++ (", Line: ".toList ++ (digitsOf t.place.line ++ ',' :: (" Column: ".toList ++
          (digitsOf t.place.column ++ '\n' :: v))))))))) := by
  unfold line text
  simp only [String.toList_append, List.append_assoc]
  rfl

/-- A line can be told from what follows it, and what it shows can be told from it. -/
lemma Spelled.line_append_inj (ht : t.Spelled) (hu : u.Spelled) (h : t.line ++ v = u.line ++ w) :
    Relocation.unspanned.token t = Relocation.unspanned.token u ∧ v = w := by
  rw [line_append, line_append] at h
  obtain ⟨hname, h⟩ := append_cons_inj t.kind.comma_not_mem_name u.kind.comma_not_mem_name
    (List.append_cancel_left h)
  have hkind : t.kind = u.kind := TokenKind.name_injective (String.toList_inj.1 hname)
  obtain ⟨hlexeme, h⟩ := ht.lexeme_append_inj hu hkind (List.append_cancel_left h)
  have hliteral : t.literal = u.literal := ht.literal_eq hu hkind hlexeme
  rw [hliteral] at h
  obtain ⟨hline, h⟩ := digitsOf_append_inj (by decide)
    (List.append_cancel_left (List.append_cancel_left h))
  obtain ⟨hcolumn, h⟩ := digitsOf_append_inj (by decide) (List.append_cancel_left h)
  have hplace : t.place = u.place := congrArg₂ Place.mk hline hcolumn
  refine ⟨?_, h⟩
  rw [Relocation.token, Relocation.token, hkind, hlexeme, hliteral, hplace]
  rfl

end Token

/-! ## Lines of errors -/

namespace LexicalError

variable {e f : LexicalError} {v w : List Char}

/-- The line that reports an error, with the line feed that ends it. -/
def line (e : LexicalError) : List Char := (e.text ++ "\n").toList

lemma line_append (e : LexicalError) (v : List Char) :
    e.line ++ v = "[LexicalPhase]: ErrorMessage: ".toList ++ (e.message.toList ++
      (" at line ".toList ++ (digitsOf e.place.line ++ ',' :: (" column ".toList ++
        (digitsOf e.place.column ++ '\n' :: v))))) := by
  have hphase : "[LexicalPhase]: ErrorMessage: ".toList
      = "[".toList ++ (Phase.lexical.name.toList ++ "]: ErrorMessage: ".toList) := by
    decide
  unfold line text
  rw [hphase]
  simp only [String.toList_append, List.append_assoc]
  rfl

/-- A line can be told from what follows it, and the error from the line. -/
lemma Reported.line_append_inj (he : e.Reported) (hf : f.Reported)
    (h : e.line ++ v = f.line ++ w) : e = f ∧ v = w := by
  rw [line_append, line_append] at h
  obtain ⟨hcause, h⟩ := he.message_append_inj hf (List.append_cancel_left h)
  obtain ⟨hline, h⟩ := digitsOf_append_inj (by decide) (List.append_cancel_left h)
  obtain ⟨hcolumn, h⟩ := digitsOf_append_inj (by decide) (List.append_cancel_left h)
  have hplace : e.place = f.place := congrArg₂ Place.mk hline hcolumn
  exact ⟨congrArg₂ LexicalError.mk hcause hplace, h⟩

lemma Reported.count_line (he : e.Reported) : e.line.count '\n' = 1 := by
  have hnumber : ∀ n, '\n' ∉ digitsOf n :=
    fun n hmem => absurd (digit_of_mem_digitsOf hmem) (by decide)
  have hline := line_append e []
  rw [List.append_nil] at hline
  rw [hline]
  simp only [List.count_append, List.count_cons, List.count_eq_zero.2 (hnumber _),
    List.count_eq_zero.2 he.lineFeed_not_mem]
  decide

end LexicalError

/-! ## Reports -/

namespace CommandLine

lemma toList_join_tokenLines (r : ScanResult) :
    (String.join (tokenLines r)).toList = r.tokens.flatMap Token.line := by
  rw [String.toList_join, tokenLines, List.flatMap_map]
  rfl

lemma toList_join_errorLines (r : ScanResult) :
    (String.join (errorLines r)).toList = r.errors.flatMap LexicalError.line := by
  rw [String.toList_join, errorLines, List.flatMap_map]
  rfl

lemma count_lineFeed_errorLines {es : List LexicalError} (h : ∀ e ∈ es, e.Reported) :
    (es.flatMap LexicalError.line).count '\n' = es.length := by
  induction es with
  | nil => rfl
  | cons e es ih =>
    rw [List.forall_mem_cons] at h
    rw [List.flatMap_cons, List.count_append, h.1.count_line, ih h.2, List.length_cons,
      Nat.add_comm]

/-- **Reports are unambiguous.**  If the reports on two texts without errors put the same on
standard output, the tokens of the texts are the same in number, and each in kind, lexeme, value,
line and column.  If the reports on two texts with errors complain of the same, the errors are the
same, and there is one line for each of them. -/
theorem report_unambiguous :
    (∀ a b, (scan a).errors = [] → (scan b).errors = [] →
      outputOf (report a) = outputOf (report b) →
      (scan a).tokens.map Relocation.unspanned.token
        = (scan b).tokens.map Relocation.unspanned.token) ∧
    (∀ a b, (scan a).errors ≠ [] → (scan b).errors ≠ [] →
      String.join (complaintsOf (report a)) = String.join (complaintsOf (report b)) →
      (scan a).errors = (scan b).errors ∧
        (String.join (complaintsOf (report a))).toList.count '\n' = (scan a).errors.length) := by
  constructor
  · intro a b ha hb h
    have hclean : ∀ {s}, (scan s).errors = [] →
        outputOf (report s) = String.join (tokenLines (scan s)) := by
      intro s hs
      rw [outputOf_report, if_pos hs]
    rw [hclean ha, hclean hb, ← String.toList_inj, toList_join_tokenLines,
      toList_join_tokenLines] at h
    exact flatMap_inj (fun t => by simp [Token.line]) Token.Spelled.line_append_inj
      (fun t => Token.spelled_of_mem) (fun t => Token.spelled_of_mem) h
  · intro a b _ _ h
    rw [complaintsOf_report, complaintsOf_report, ← String.toList_inj, toList_join_errorLines,
      toList_join_errorLines] at h
    rw [complaintsOf_report, toList_join_errorLines,
      count_lineFeed_errorLines fun e => LexicalError.reported_of_mem]
    have herrors := flatMap_inj (f := id) (fun e => by simp [LexicalError.line])
      LexicalError.Reported.line_append_inj (fun e => LexicalError.reported_of_mem)
      (fun e => LexicalError.reported_of_mem) h
    rw [List.map_id, List.map_id] at herrors
    exact ⟨herrors, rfl⟩

/-- Two texts that differ in blanks, with a string that ends like a line and goes on with another,
and two texts with two errors. -/
theorem report_unambiguous_of_imitation :
    (scan "var \"a, Literal: a\nType: Eof\"").errors = [] ∧
      (scan "var\t\"a, Literal: a\nType: Eof\"").errors = [] ∧
      outputOf (report "var \"a, Literal: a\nType: Eof\"")
        = outputOf (report "var\t\"a, Literal: a\nType: Eof\"") ∧
      (scan "var \"a, Literal: a\nType: Eof\"").tokens.map Relocation.unspanned.token
        = (scan "var\t\"a, Literal: a\nType: Eof\"").tokens.map Relocation.unspanned.token ∧
      (scan "@ \"").errors ≠ [] ∧ (scan "@\t\"\n").errors ≠ [] ∧
      String.join (complaintsOf (report "@ \""))
        = String.join (complaintsOf (report "@\t\"\n")) ∧
      (scan "@ \"").errors = (scan "@\t\"\n").errors ∧
      (String.join (complaintsOf (report "@ \""))).toList.count '\n'
        = (scan "@ \"").errors.length := by
  have hclean : (scan "var \"a, Literal: a\nType: Eof\"").errors = [] := by decide +kernel
  have hclean' : (scan "var\t\"a, Literal: a\nType: Eof\"").errors = [] := by decide +kernel
  have houtput : outputOf (report "var \"a, Literal: a\nType: Eof\"")
      = outputOf (report "var\t\"a, Literal: a\nType: Eof\"") := by decide +kernel
  have herrors : (scan "@ \"").errors ≠ [] := by decide +kernel
  have herrors' : (scan "@\t\"\n").errors ≠ [] := by decide +kernel
  have hcomplaints : String.join (complaintsOf (report "@ \""))
      = String.join (complaintsOf (report "@\t\"\n")) := by decide +kernel
  exact ⟨hclean, hclean', houtput, report_unambiguous.1 _ _ hclean hclean' houtput, herrors,
    herrors', hcomplaints, report_unambiguous.2 _ _ herrors herrors' hcomplaints⟩

end CommandLine

end ScriptLexer

/-
# Regions of a text

One who cares only for comments reads a text as code, strings and comments.  In code a quotation
mark opens a string and two slashes open a comment; a string ends with the next quotation mark, and
a comment before the next line feed.  This reading knows nothing of tokens.  Still the two agree on
where strings and comments begin and end: a segment lies in one region, and behind it there is code
again (`IsSegment.exists_liesIn`).
-/
import ScriptLexer.Proofs.Segment.Rules

namespace ScriptLexer

/-- What a character of a text belongs to. -/
inductive Region
  /-- What is neither in a string nor in a comment. -/
  | code
  /-- A string, its quotation marks included. -/
  | string
  /-- A comment, its slashes included and the line feed behind it not. -/
  | comment
deriving DecidableEq, Repr

/-- The characters of a text with their regions, where the text begins within the given region. -/
def regionsFrom : Region → List Char → List (Char × Region)
  | _, [] => []
  | .code, '/' :: '/' :: cs => ('/', .comment) :: ('/', .comment) :: regionsFrom .comment cs
  | .code, '"' :: cs => ('"', .string) :: regionsFrom .string cs
  | .code, c :: cs => (c, .code) :: regionsFrom .code cs
  | .string, c :: cs => (c, .string) :: regionsFrom (if c = '"' then .code else .string) cs
  | .comment, c :: cs =>
    if c = '\n' then (c, .code) :: regionsFrom .code cs
    else (c, .comment) :: regionsFrom .comment cs

/-- The characters that open neither a string nor a comment, whatever follows them. -/
def Plain (c : Char) : Prop := c ≠ '"' ∧ c ≠ '/'

instance : DecidablePred Plain := fun _ => inferInstanceAs (Decidable (_ ∧ _))

lemma map_fst_regionsFrom (r : Region) (cs : List Char) : (regionsFrom r cs).map Prod.fst = cs := by
  fun_induction regionsFrom r cs <;> simp_all

lemma region_ne_comment_of_lineFeed (r : Region) (cs : List Char) :
    ∀ x ∈ regionsFrom r cs, x.1 = '\n' → x.2 ≠ .comment := by
  fun_induction regionsFrom r cs with
  | case1 => simp
  | case2 cs ih => simpa using ih
  | case3 cs ih => simpa using ih
  | case4 c cs _ _ ih => simpa using ih
  | case5 c cs ih => simpa using ih
  | case6 cs ih => simpa using ih
  | case7 c cs hc ih => simpa [hc] using ih

/-! ## Runs in a region -/

section Runs

variable {c : Char} {body rest : List Char}

lemma regionsFrom_code_quote :
    regionsFrom .code ('"' :: rest) = ('"', .string) :: regionsFrom .string rest := rfl

lemma regionsFrom_string_cons : regionsFrom .string (c :: rest) =
    (c, .string) :: regionsFrom (if c = '"' then .code else .string) rest := by
  rw [regionsFrom]

lemma regionsFrom_comment_cons : regionsFrom .comment (c :: rest) =
    if c = '\n' then (c, .code) :: regionsFrom .code rest
    else (c, .comment) :: regionsFrom .comment rest := by
  rw [regionsFrom]

lemma regionsFrom_code_cons (h : Plain c) :
    regionsFrom .code (c :: rest) = (c, .code) :: regionsFrom .code rest := by
  rw [regionsFrom]
  · exact fun _ hslash _ => h.2 hslash
  · exact h.1

lemma regionsFrom_code_slash (h : Stops (· = '/') rest) :
    regionsFrom .code ('/' :: rest) = ('/', .code) :: regionsFrom .code rest := by
  rw [regionsFrom]
  · rintro cs - rfl
    exact stops_cons.1 h rfl
  · decide

/-- Characters that open neither a string nor a comment are code. -/
lemma regionsFrom_code_append (h : ∀ c ∈ body, Plain c) :
    regionsFrom .code (body ++ rest) = body.map (·, .code) ++ regionsFrom .code rest := by
  induction body with
  | nil => rfl
  | cons c body ih =>
    rw [List.cons_append, regionsFrom_code_cons (h c List.mem_cons_self),
      ih fun d hd => h d (List.mem_cons_of_mem c hd)]
    rfl

lemma regionsFrom_string_append (h : ∀ c ∈ body, c ≠ '"') :
    regionsFrom .string (body ++ rest) = body.map (·, .string) ++ regionsFrom .string rest := by
  induction body with
  | nil => rfl
  | cons c body ih =>
    rw [List.cons_append, regionsFrom_string_cons, if_neg (h c List.mem_cons_self),
      ih fun d hd => h d (List.mem_cons_of_mem c hd)]
    rfl

/-- A comment goes on to the next line feed, and behind it there is code. -/
lemma regionsFrom_comment_append (h : ∀ c ∈ body, c ≠ '\n') (hrest : Stops (· ≠ '\n') rest) :
    regionsFrom .comment (body ++ rest) = body.map (·, .comment) ++ regionsFrom .code rest := by
  induction body with
  | nil =>
    cases rest with
    | nil => rfl
    | cons c rest =>
      obtain rfl : c = '\n' := Decidable.of_not_not (stops_cons.1 hrest)
      rw [List.nil_append, regionsFrom_comment_cons, if_pos rfl,
        regionsFrom_code_cons (by decide)]
      rfl
  | cons c body ih =>
    rw [List.cons_append, regionsFrom_comment_cons, if_neg (h c List.mem_cons_self),
      ih fun d hd => h d (List.mem_cons_of_mem c hd)]
    rfl

end Runs

/-! ## A segment lies in one region -/

lemma WordChar.plain {c : Char} (h : WordChar c) : Plain c := by
  constructor <;> rintro rfl <;> exact absurd h (by decide)

lemma Digits.plain {ds : List Char} (h : Digits ds) : ∀ c ∈ ds, Plain c :=
  fun c hc => (h.2 c hc).wordChar.plain

lemma Word.plain {w : List Char} (h : Word w) : ∀ c ∈ w, Plain c :=
  fun c hc => (h.2 c hc).plain

lemma Numeral.plain {text whole fraction : List Char} (h : Numeral text whole fraction) :
    ∀ c ∈ text, Plain c := by
  cases h with
  | whole hds => exact hds.plain
  | pointed hds hfs =>
    intro c hc
    rw [List.mem_append, List.mem_cons] at hc
    rcases hc with hc | rfl | hc
    · exact hds.plain c hc
    · decide
    · exact hfs.plain c hc

/-- The segment `text` that stands for `outcome` lies in the region `r`, and there is code behind
it. -/
structure LiesIn (r : Region) (text : List Char) (outcome : Outcome) (rest : List Char) :
    Prop where
  /-- Each character of the segment is in the region, and the others are read from code on. -/
  regions : regionsFrom .code (text ++ rest) = text.map (·, r) ++ regionsFrom .code rest
  /-- A comment stands for nothing and is the remainder of its line. -/
  comment : r = .comment → outcome = .nothing ∧ (∀ c ∈ text, c ≠ '\n') ∧ Stops (· ≠ '\n') rest

variable {text rest : List Char} {outcome : Outcome}

lemma liesIn_code (h : ∀ c ∈ text, Plain c) : LiesIn .code text outcome rest :=
  ⟨regionsFrom_code_append h, fun h => Region.noConfusion h⟩

/-- A segment lies in one region. -/
lemma IsSegment.exists_liesIn (h : IsSegment text outcome rest) :
    ∃ r, LiesIn r text outcome rest := by
  have hlone : ∀ p ∈ loneSymbols, Plain p.1 := by decide
  have hpaired : ∀ p ∈ pairedSymbols, Plain p.1 := by decide
  have hdot : Plain '.' := by decide
  have hequals : Plain '=' := by decide
  cases h with
  | @comment body _ hbody hrest =>
    refine ⟨.comment, ?_, fun _ => ⟨rfl, by simpa using hbody, hrest⟩⟩
    rw [List.cons_append, List.cons_append, regionsFrom, regionsFrom_comment_append hbody hrest]
    rfl
  | @string body _ hbody =>
    refine ⟨.string, ?_, fun h => Region.noConfusion h⟩
    rw [List.cons_append, List.append_assoc, regionsFrom_code_quote,
      regionsFrom_string_append hbody, List.singleton_append, regionsFrom_string_cons, if_pos rfl]
    simp
  | @unterminated body hbody =>
    refine ⟨.string, ?_, fun h => Region.noConfusion h⟩
    rw [List.cons_append, regionsFrom_code_quote, regionsFrom_string_append hbody]
    rfl
  | slash hrest =>
    exact ⟨.code, regionsFrom_code_slash hrest, fun h => Region.noConfusion h⟩
  -- all other segments are made of plain characters
  | @blank c _ hb =>
    have hc : Plain c := by rcases hb with rfl | rfl | rfl | rfl <;> decide
    exact ⟨.code, liesIn_code (by simpa using hc)⟩
  | lone hs => exact ⟨.code, liesIn_code (by simpa using hlone _ hs)⟩
  | short hp => exact ⟨.code, liesIn_code (by simpa using hpaired _ hp)⟩
  | long hp => exact ⟨.code, liesIn_code (by simpa using ⟨hpaired _ hp, hequals⟩)⟩
  | keyword => exact ⟨.code, liesIn_code (word_spelling _).plain⟩
  | identifier hw => exact ⟨.code, liesIn_code hw.plain⟩
  | dotDigits hds => exact ⟨.code, liesIn_code (by simpa using ⟨hdot, hds.plain⟩)⟩
  | dotWord hw => exact ⟨.code, liesIn_code (by simpa using ⟨hdot, hw.plain⟩)⟩
  | dot => exact ⟨.code, liesIn_code (by simpa using hdot)⟩
  | digitsWord hds hw =>
    exact ⟨.code, liesIn_code (List.forall_mem_append.2 ⟨hds.plain, hw.plain⟩)⟩
  | number hn => exact ⟨.code, liesIn_code hn.plain⟩
  | strayDot hn =>
    exact ⟨.code, liesIn_code (List.forall_mem_append.2 ⟨hn.plain, by simpa using hdot⟩)⟩
  | leadingDot hn => exact ⟨.code, liesIn_code hn.plain⟩
  | @unexpected c _ hblank hword hmark =>
    have hc : Plain c := by constructor <;> rintro rfl <;> exact hmark (by decide)
    exact ⟨.code, liesIn_code (by simpa using hc)⟩

end ScriptLexer

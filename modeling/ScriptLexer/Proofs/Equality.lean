/-
# Equality of results

Results are compared field by field, and the values of number tokens as numbers.  As numbers what is
not a number differs from itself, and the two zeros are equal.  Neither comes out of a scan: a
numeral is rounded to a number with a clear sign, at most infinity
(`Token.hasMagnitude_of_mem`).  So the comparison says no more and no less than that all fields
agree, numbers bit by bit.
-/
import ScriptLexer.Proofs.LexicalError
import ScriptLexer.Proofs.Numeral
import Mathlib.Data.List.Forall2

namespace ScriptLexer

/-! ## Numbers -/

namespace Binary64

variable {q : ℚ} {x y : Binary64}

/-- The number is a magnitude: it is a number, and its sign is clear. -/
structure IsMagnitude (x : Binary64) : Prop where
  /-- It is a number. -/
  number : x.isNaN = false
  /-- The sign is clear, that of zero included. -/
  sign : x.isNegative = false

lemma RoundsTo.isMagnitude (h : RoundsTo q x) : x.IsMagnitude :=
  ⟨decide_eq_false (Nat.not_lt.2 h.inBasin.rank_le), h.sign⟩

lemma beq_eq (x y : Binary64) : (x == y) =
    (!x.isNaN && !y.isNaN && (x.bits == y.bits || (x.rank == 0 && y.rank == 0))) := rfl

/-- Magnitudes that are equal as numbers are the same: there is one zero among them. -/
lemma IsMagnitude.beq_iff (hx : x.IsMagnitude) (hy : y.IsMagnitude) :
    (x == y) = true ↔ x = y := by
  have hzero : x.rank = 0 ∧ y.rank = 0 → x = y := by
    rintro ⟨hxr, hyr⟩
    rw [← ofRank_rank hx.sign, ← ofRank_rank hy.sign, hxr, hyr]
  have hbits : x.bits = y.bits ↔ x = y := by
    cases x
    cases y
    rw [Binary64.mk.injEq]
  rw [beq_eq, hx.number, hy.number]
  simpa [hbits] using hzero

end Binary64

/-! ## Agreement -/

/-- What a value consists of: the characters of a string, or the bits of a number. -/
def Literal.content : Literal → String ⊕ BitVec 64
  | string value => .inl value
  | number value => .inr value.bits

/-- The tokens agree in every field, and in their values bit by bit. -/
structure Token.Agrees (t u : Token) : Prop where
  kind : t.kind = u.kind
  lexeme : t.lexeme = u.lexeme
  /-- Both have no value, or values of the same characters or of the same bits. -/
  literal : t.literal.map Literal.content = u.literal.map Literal.content
  place : t.place = u.place
  span : t.span = u.span

/-- The errors agree in every field that is reported. -/
structure LexicalError.Agrees (e f : LexicalError) : Prop where
  phase : e.phase = f.phase
  message : e.message = f.message
  place : e.place = f.place

/-- The results have as many tokens and as many errors, and one after the other these agree. -/
structure ScanResult.Agrees (r s : ScanResult) : Prop where
  tokens : List.Forall₂ Token.Agrees r.tokens s.tokens
  errors : List.Forall₂ LexicalError.Agrees r.errors s.errors

lemma Literal.content_injective : Function.Injective Literal.content := by
  rintro (a | ⟨x⟩) (b | ⟨y⟩) h
  · exact congrArg Literal.string (Sum.inl.inj h)
  · exact absurd h Sum.inl_ne_inr
  · exact absurd h Sum.inr_ne_inl
  · exact congrArg (fun bits => Literal.number ⟨bits⟩) (Sum.inr.inj h)

/-- Tokens that agree are the same. -/
lemma Token.agrees_iff {t u : Token} : t.Agrees u ↔ t = u := by
  constructor
  · intro h
    have hliteral := Option.map_injective Literal.content_injective h.literal
    cases t
    cases u
    rw [Token.mk.injEq]
    exact ⟨h.kind, h.lexeme, hliteral, h.place, h.span⟩
  · rintro rfl
    exact ⟨rfl, rfl, rfl, rfl, rfl⟩

lemma LexicalError.Reported.agrees_iff {e f : LexicalError} (he : e.Reported) (hf : f.Reported) :
    e.Agrees f ↔ e = f := by
  constructor
  · intro h
    have hcause := he.cause_eq hf h.message
    cases e
    cases f
    rw [LexicalError.mk.injEq]
    exact ⟨hcause, h.place⟩
  · rintro rfl
    exact ⟨rfl, rfl, rfl⟩

/-! ## Values that come out of a scan -/

/-- If the token has a number for its value, then this is a magnitude. -/
def Token.HasMagnitude (t : Token) : Prop :=
  ∀ x, t.literal = some (.number x) → x.IsMagnitude

lemma IsSegment.isMagnitude {text rest : List Char} {kind : TokenKind} {x : Binary64}
    (h : IsSegment text (.token kind (some (.number x))) rest) : x.IsMagnitude := by
  cases h with
  | @number _ whole fraction => exact (roundsTo_ofDigits whole fraction).isMagnitude

/-- The numbers among the values of a scan are magnitudes. -/
lemma Token.hasMagnitude_of_mem {source : String} {t : Token} (ht : t ∈ (scan source).tokens) :
    t.HasMagnitude := by
  intro x hx
  rw [tokens_scan, List.mem_append, List.mem_singleton] at ht
  rcases ht with ht | rfl
  · have hseg := isSegment_of_mem_body ht
    rw [hx] at hseg
    exact hseg.isMagnitude
  · exact absurd hx (by simp [endOfFile])

/-! ## Comparison -/

lemma Literal.string_beq_string (a b : String) :
    (Literal.string a == Literal.string b) = (a == b) := rfl

lemma Literal.number_beq_number (x y : Binary64) :
    (Literal.number x == Literal.number y) = (x == y) := rfl

/-- Values that are equal are the same, provided that numbers are magnitudes. -/
lemma Literal.beq_iff {k l : Literal} (hk : ∀ x, k = .number x → x.IsMagnitude)
    (hl : ∀ y, l = .number y → y.IsMagnitude) : (k == l) = true ↔ k = l := by
  cases k with
  | string a =>
    cases l with
    | string b => rw [string_beq_string, beq_iff_eq, Literal.string.injEq]
    | number y => exact iff_of_false Bool.false_ne_true Literal.noConfusion
  | number x =>
    cases l with
    | string b => exact iff_of_false Bool.false_ne_true Literal.noConfusion
    | number y => rw [number_beq_number, (hk x rfl).beq_iff (hl y rfl), Literal.number.injEq]

/-- Tokens that are equal are the same, provided that numbers among their values are magnitudes. -/
lemma Token.HasMagnitude.beq_iff {t u : Token} (ht : t.HasMagnitude) (hu : u.HasMagnitude) :
    (t == u) = true ↔ t = u := by
  have hbeq : (t == u) = (t.kind == u.kind && t.lexeme == u.lexeme && t.literal == u.literal
    && t.place == u.place && t.span == u.span) := rfl
  have hliteral : (t.literal == u.literal) = true ↔ t.literal = u.literal := by
    rcases hk : t.literal with _ | k <;> rcases hl : u.literal with _ | l
    · simp
    · simp
    · simp
    · rw [Option.some_beq_some, Option.some_inj]
      exact Literal.beq_iff (fun x hx => ht x (hk.trans (congrArg some hx)))
        fun y hy => hu y (hl.trans (congrArg some hy))
  rw [hbeq]
  simp only [Bool.and_eq_true, beq_iff_eq, hliteral]
  cases t
  cases u
  rw [Token.mk.injEq, and_assoc, and_assoc, and_assoc]

lemma LexicalError.beq_iff (e f : LexicalError) : (e == f) = true ↔ e.Agrees f := by
  have hbeq : (e == f) = (e.phase == f.phase && e.message == f.message && e.place == f.place) := rfl
  rw [hbeq, Bool.and_eq_true, Bool.and_eq_true, beq_iff_eq, beq_iff_eq, beq_iff_eq]
  exact ⟨fun ⟨⟨hphase, hmessage⟩, hplace⟩ => ⟨hphase, hmessage, hplace⟩,
    fun h => ⟨⟨h.phase, h.message⟩, h.place⟩⟩

lemma beq_iff_forall₂ {α : Type} [BEq α] {R : α → α → Prop} {xs ys : List α}
    (h : ∀ x ∈ xs, ∀ y ∈ ys, (x == y) = true ↔ R x y) :
    (xs == ys) = true ↔ List.Forall₂ R xs ys := by
  induction xs generalizing ys with
  | nil => cases ys <;> simp
  | cons x xs ih =>
    cases ys with
    | nil => simp
    | cons y ys =>
      have hhead := h x List.mem_cons_self y List.mem_cons_self
      have htail := ih fun x hx y hy =>
        h x (List.mem_cons_of_mem _ hx) y (List.mem_cons_of_mem _ hy)
      rw [List.cons_beq_cons, Bool.and_eq_true, hhead, htail, List.forall₂_cons]

/-! ## Whole texts -/

lemma ScanResult.beq_iff {r s : ScanResult} :
    (r == s) = true ↔ (r.tokens == s.tokens) = true ∧ (r.errors == s.errors) = true :=
  Bool.and_eq_true_iff

section Scans

variable (a b : String)

lemma beq_tokens_iff : ∀ t ∈ (scan a).tokens, ∀ u ∈ (scan b).tokens, (t == u) = true ↔ t = u :=
  fun _ ht _ hu => (Token.hasMagnitude_of_mem ht).beq_iff (Token.hasMagnitude_of_mem hu)

lemma beq_errors_iff : ∀ e ∈ (scan a).errors, ∀ f ∈ (scan b).errors, (e == f) = true ↔ e = f := by
  intro e he f hf
  rw [LexicalError.beq_iff]
  exact (LexicalError.reported_of_mem he).agrees_iff (LexicalError.reported_of_mem hf)

lemma beq_scan_iff_agrees : (scan a == scan b) = true ↔ (scan a).Agrees (scan b) := by
  rw [ScanResult.beq_iff, beq_iff_forall₂ fun e _ f _ => LexicalError.beq_iff e f,
    beq_iff_forall₂ fun t ht u hu => (beq_tokens_iff a b t ht u hu).trans Token.agrees_iff.symm]
  exact ⟨fun h => ⟨h.1, h.2⟩, fun h => ⟨h.tokens, h.errors⟩⟩

lemma beq_scan_iff_eq : (scan a == scan b) = true ↔ scan a = scan b := by
  rw [ScanResult.beq_iff, beq_iff_forall₂ (beq_tokens_iff a b),
    beq_iff_forall₂ (beq_errors_iff a b), List.forall₂_eq_eq_eq, List.forall₂_eq_eq_eq]
  cases scan a
  cases scan b
  rw [ScanResult.mk.injEq]

end Scans

/-- **Results are equal if they agree in every field.**  The results of two scans are equal if and
only if their tokens and their errors agree, the values of tokens bit by bit, and this is so if and
only if the results are the same.  A token of one and a token of the other are equal if and only if
they agree.  So a result equals itself, and equality is an equivalence of results.  Equality of
numbers is neither reflexive nor bit by bit, but the value of a number token is a number and has a
clear sign. -/
theorem beq_scan_iff :
    (∀ a b, ((scan a == scan b) = true ↔ (scan a).Agrees (scan b)) ∧
      ((scan a == scan b) = true ↔ scan a = scan b) ∧
      ∀ t ∈ (scan a).tokens, ∀ u ∈ (scan b).tokens, (t == u) = true ↔ t.Agrees u) ∧
    (∀ a, (scan a == scan a) = true) ∧
    (Equivalence fun a b : String => (scan a == scan b) = true) ∧
    (∃ x : Binary64, (x == x) = false) ∧
    (∃ x y : Binary64, (x == y) = true ∧ x.bits ≠ y.bits) ∧
    ∀ a, ∀ t ∈ (scan a).tokens, ∀ x, t.literal = some (.number x) →
      x.isNaN = false ∧ x.isNegative = false := by
  refine ⟨fun a b => ⟨beq_scan_iff_agrees a b, beq_scan_iff_eq a b, fun t ht u hu => ?_⟩,
    fun a => (beq_scan_iff_eq a a).2 rfl, ⟨?_, ?_, ?_⟩, ?_, ?_, fun a t ht x hx => ?_⟩
  · rw [Token.agrees_iff]
    exact beq_tokens_iff a b t ht u hu
  · exact fun a => (beq_scan_iff_eq a a).2 rfl
  · intro a b h
    rw [beq_scan_iff_eq] at h ⊢
    exact h.symm
  · intro a b c h h'
    rw [beq_scan_iff_eq] at h h' ⊢
    exact h.trans h'
  · exact ⟨⟨0x7ff8000000000000#64⟩, by decide⟩
  · exact ⟨⟨0#64⟩, ⟨0x8000000000000000#64⟩, by decide, by decide⟩
  · have hmagnitude := Token.hasMagnitude_of_mem ht x hx
    exact ⟨hmagnitude.number, hmagnitude.sign⟩

/-- Texts that differ in a comment have equal results, and the zero in them has a clear sign. -/
theorem beq_scan_iff_of_comments :
    (scan "0.0//a" == scan "0.0//b") = true ∧
      (⟨.number, "0.0", some (.number ⟨0#64⟩), ⟨1, 1⟩, ⟨0, 3⟩⟩ : Token) ∈ (scan "0.0//a").tokens ∧
      (⟨.number, "0.0", some (.number ⟨0#64⟩), ⟨1, 1⟩, ⟨0, 3⟩⟩ : Token) ∈ (scan "0.0//b").tokens ∧
      ((⟨.number, "0.0", some (.number ⟨0#64⟩), ⟨1, 1⟩, ⟨0, 3⟩⟩ : Token)
        == ⟨.number, "0.0", some (.number ⟨0#64⟩), ⟨1, 1⟩, ⟨0, 3⟩⟩) = true ∧
      (⟨0#64⟩ : Binary64).isNaN = false ∧ (⟨0#64⟩ : Binary64).isNegative = false := by
  have hsame : scan "0.0//a" = scan "0.0//b" := by decide +kernel
  have hfirst : (scan "0.0//a").tokens[0]?
      = some ⟨.number, "0.0", some (.number ⟨0#64⟩), ⟨1, 1⟩, ⟨0, 3⟩⟩ := by decide +kernel
  have hmem := List.mem_of_getElem? hfirst
  have hmem' := hmem
  rw [hsame] at hmem'
  obtain ⟨hiff, -, -, -, -, hnumber⟩ := beq_scan_iff
  obtain ⟨-, heq, htokens⟩ := hiff "0.0//a" "0.0//b"
  exact ⟨heq.2 hsame, hmem, hmem', (htokens _ hmem _ hmem').2 ⟨rfl, rfl, rfl, rfl, rfl⟩,
    hnumber _ _ hmem _ rfl⟩

end ScriptLexer

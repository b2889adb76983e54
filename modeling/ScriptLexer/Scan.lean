/-
# Scanning a text

A scan stands at a cursor in a text and holds the characters that are left.  Asked for the next
item it passes over the segments that stand for nothing and delivers the first that does not, as a
token or as an error.  It may be asked item by item, and finished at any moment: finishing collects
what is left, tokens and errors apart, and closes the tokens with the end of the text.
-/
import ScriptLexer.Segment
import ScriptLexer.Token

namespace ScriptLexer

/-! ## Items -/

/-- What a scan delivers. -/
inductive Item
  | token (t : Token)
  | error (e : LexicalError)
deriving DecidableEq, Repr

/-- The item that a segment at the cursor `k` stands for. -/
def Segment.item? (s : Segment) (k : Cursor) : Option Item :=
  match s.outcome with
  | .nothing => none
  | .token kind literal =>
    some (.token {
      kind, literal
      lexeme := String.ofList s.text
      place := k.place
      span := ⟨k.offset, (k.past s.text).offset⟩ })
  | .error cause => some (.error ⟨cause, k.place⟩)

/-! ## Scans -/

/-- A scan of a text, as far as it has come. -/
structure Scan where
  /-- The characters that are not yet read. -/
  rest : List Char
  /-- The cursor at the first of them. -/
  cursor : Cursor
deriving DecidableEq, Repr

namespace Scan

/-- The scan at the start of a text. -/
def ofString (source : String) : Scan := ⟨source.toList, Cursor.start⟩

/-- The scan behind the segment `s`, which begins at the cursor. -/
def behind (k : Scan) (s : Segment) : Scan := ⟨s.rest, k.cursor.past s.text⟩

/-- The next item, and the scan behind it.  There is none once only blanks and comments are
left, and the scan then stands at the end of the text. -/
def next (k : Scan) : Option Item × Scan :=
  match k with
  | ⟨[], _⟩ => (none, k)
  | ⟨c :: cs, cursor⟩ =>
    let s := Segment.first c cs
    match s.item? cursor with
    | some item => (some item, k.behind s)
    | none => (k.behind s).next
termination_by k.rest.length
decreasing_by exact Segment.length_rest_first_lt c cs

/-- A scan that delivers an item has less of the text left afterwards. -/
theorem length_rest_next_lt {k k' : Scan} {item : Item} (h : k.next = (some item, k')) :
    k'.rest.length < k.rest.length := by
  fun_induction next k with
  | case1 => simp at h
  | case2 c cs cursor s _ hitem =>
    rw [← (Prod.mk.inj h).2]
    exact Segment.length_rest_first_lt c cs
  | case3 c cs cursor s hitem ih =>
    exact Nat.lt_trans (ih h) (Segment.length_rest_first_lt c cs)

/-- All items that are left, in the order of the text. -/
def items (k : Scan) : List Item :=
  match _hn : k.next with
  | (none, _) => []
  | (some item, k') => item :: k'.items
termination_by k.rest.length
decreasing_by exact length_rest_next_lt _hn

/-- The next `n` items, or all if fewer are left, and the scan behind them. -/
def take (k : Scan) : Nat → List Item × Scan
  | 0 => ([], k)
  | n + 1 =>
    match k.next with
    | (none, k') => ([], k')
    | (some item, k') =>
      let (items, k'') := k'.take n
      (item :: items, k'')

end Scan

/-! ## Results -/

/-- Everything that a scan found. -/
structure ScanResult where
  /-- The tokens, of which the last is the end of the text. -/
  tokens : List Token
  /-- The errors. -/
  errors : List LexicalError
deriving DecidableEq, Repr

namespace ScanResult

/-- Whether the text breaks a lexical rule. -/
def hasErrors (r : ScanResult) : Bool := !r.errors.isEmpty

/-- Equality of results: equal tokens and equal errors, in the same order. -/
def equals (r s : ScanResult) : Bool := r.tokens == s.tokens && r.errors == s.errors

instance : BEq ScanResult := ⟨equals⟩

end ScanResult

namespace Scan

/-- Collects the items that are left behind the tokens and errors found before, which are given
last one first. -/
def collect (k : Scan) (tokens : List Token) (errors : List LexicalError) : ScanResult :=
  match _hn : k.next with
  | (none, k') => ⟨(Token.endOfFile k'.cursor :: tokens).reverse, errors.reverse⟩
  | (some (.token t), k') => k'.collect (t :: tokens) errors
  | (some (.error e), k') => k'.collect tokens (e :: errors)
termination_by k.rest.length
decreasing_by all_goals exact length_rest_next_lt _hn

/-- Finishes a scan: the tokens and the errors that are left, and the end of the text. -/
def finish (k : Scan) : ScanResult := k.collect [] []

end Scan

/-- Scans a whole text. -/
def scan (source : String) : ScanResult := (Scan.ofString source).finish

end ScriptLexer

/-
# Dotted chains

A chain begins with digits, and behind them stand parts with a dot in front of each.  Digits with
one part of digits behind them are a number.  In every other chain there is a dot too many, and then
nothing in the chain is a token: the numeral that it begins with is an error, and so is each dot
outside this numeral, together with the part behind it.

Two rules share the work.  The rule of numerals leaves the dot that it rejects
(`Numeral.isSegment_dotted`), and the rule of dots takes one dot and the part behind it
(`ChainPart.isSegment_dotted`), so that the rest of the chain falls into its parts
(`segmentation_dotted`).
-/
import ScriptLexer.Proofs.Segment.Context
import ScriptLexer.Proofs.Position

namespace ScriptLexer

/-! ## Chains -/

/-- A part of a chain. -/
inductive ChainPart
  /-- A run of digits. -/
  | digits (ds : List Char) (isDigits : Digits ds)
  /-- A name: a letter or an underscore, and letters, digits and underscores behind it. -/
  | name (w : List Char) (isWord : Word w)

namespace ChainPart

/-- The characters of a part. -/
def text : ChainPart → List Char
  | digits ds _ => ds
  | name w _ => w

/-- The words in which a dot in front of the part is reported. -/
def message : ChainPart → String
  | digits _ _ => "Invalid Number"
  | name _ _ => "Invalid identifier: cannot start with a dot"

end ChainPart

/-- The parts with a dot in front of each. -/
def dotted (parts : List ChainPart) : List Char := parts.flatMap fun p => '.' :: p.text

/-- What is reported of the dots in front of the parts, the first of which has the characters
`before` in front of it: one error at each dot. -/
def dotReports (before : List Char) : List ChainPart → List (String × Place)
  | [] => []
  | p :: parts =>
    (p.message, ⟨1, 1 + before.length⟩) :: dotReports (before ++ '.' :: p.text) parts

/-- What is reported of a chain: an error at its first digit, and one at each dot outside the
numeral that the chain begins with.  Digits behind the first dot belong to this numeral, and so does
the dot. -/
def chainReports (ds : List Char) : List ChainPart → List (String × Place)
  | .digits fs _ :: parts => ("Invalid Number", ⟨1, 1⟩) :: dotReports (ds ++ '.' :: fs) parts
  | parts => ("Invalid Number", ⟨1, 1⟩) :: dotReports ds parts

/-! ## Dots and parts -/

@[simp] lemma dotted_nil : dotted [] = [] := rfl

@[simp] lemma dotted_cons (p : ChainPart) (parts : List ChainPart) :
    dotted (p :: parts) = '.' :: p.text ++ dotted parts := rfl

lemma stops_dotted {q : Char → Prop} (h : ¬ q '.') (parts : List ChainPart) :
    Stops q (dotted parts) := by
  cases parts with
  | nil => exact stops_nil
  | cons p parts => exact stops_cons.2 h

namespace ChainPart

/-- Why a dot may not stand in front of the part. -/
def cause : ChainPart → ErrorCause
  | digits _ _ => .invalidNumber
  | name _ _ => .nameAfterDot

@[simp] lemma message_cause (p : ChainPart) : p.cause.message = p.message := by
  cases p <;> rfl

lemma exists_cons (p : ChainPart) : ∃ c cs, p.text = c :: cs ∧ WordChar c := by
  cases p with
  | digits ds hds =>
    obtain ⟨d, ds', rfl, hd⟩ := hds.exists_cons
    exact ⟨d, ds', rfl, hd.wordChar⟩
  | name w hw =>
    obtain ⟨c, w', rfl, hc⟩ := hw.exists_cons
    exact ⟨c, w', rfl, hc.wordChar⟩

lemma lineFeed_not_mem (p : ChainPart) : '\n' ∉ '.' :: p.text := by
  have hblank : Blank '\n' := by decide
  intro hmem
  rcases List.mem_cons.1 hmem with hdot | hmem
  · exact absurd hdot (by decide)
  · cases p with
    | digits ds hds => exact hds.not_blank _ hmem hblank
    | name w hw => exact hw.not_blank _ hmem hblank

/-- The piece of a dot and the part behind it. -/
def piece (p : ChainPart) : Piece := ⟨'.' :: p.text, .error p.cause⟩

lemma isSegment_dotted (p : ChainPart) (parts : List ChainPart) :
    IsSegment ('.' :: p.text) (.error p.cause) (dotted parts) := by
  cases p with
  | digits ds hds => exact .dotDigits hds (stops_dotted (by decide) parts)
  | name w hw => exact .dotWord hw (stops_dotted (by decide) parts)

end ChainPart

/-- Parts with dots in front of them fall into these parts. -/
lemma segmentation_dotted (parts : List ChainPart) :
    Segmentation (dotted parts) (parts.map ChainPart.piece) := by
  induction parts with
  | nil => exact .nil
  | cons p parts ih => exact .cons (p.isSegment_dotted parts) ih

/-! ## The numeral at the start -/

/-- A numeral in front of a dot is rejected, and the dot is left. -/
lemma Numeral.isSegment_dotted {text whole fraction : List Char} {parts : List ChainPart}
    (h : Numeral text whole fraction) (hparts : parts ≠ [])
    (hwhole : fraction = [] → ∀ fs hfs others, parts ≠ .digits fs hfs :: others) :
    IsSegment text (.error .invalidNumber) (dotted parts) := by
  obtain ⟨p, others, rfl⟩ := List.exists_cons_of_ne_nil hparts
  obtain ⟨c, cs, hcs, hc⟩ := p.exists_cons
  have hletter : fraction = [] → Letter c := by
    intro hnil
    -- digits behind the dot of a whole number would be its fraction
    cases p with
    | digits fs hfs => exact absurd rfl (hwhole hnil fs hfs others)
    | name w hw =>
      obtain ⟨d, w', hd, hletter⟩ := hw.exists_cons
      obtain ⟨rfl, -⟩ := List.cons.inj (hcs.symm.trans hd)
      exact hletter
  rw [dotted_cons, hcs]
  exact .leadingDot h hc hletter

/-! ## What is reported -/

/-- What is reported of an error. -/
def LexicalError.report (e : LexicalError) : String × Place := (e.message, e.place)

/-- The items of parts with dots in front of them are one error for each dot. -/
lemma items_dotted {before : List Char} (hbefore : '\n' ∉ before) (parts : List ChainPart) :
    (Piece.itemsFrom (Cursor.behind before) (parts.map ChainPart.piece)).filterMap
        Item.token? = [] ∧
      ((Piece.itemsFrom (Cursor.behind before) (parts.map ChainPart.piece)).filterMap
        Item.error?).map LexicalError.report = dotReports before parts := by
  induction parts generalizing before with
  | nil => exact ⟨rfl, rfl⟩
  | cons p parts ih =>
    have hbehind : '\n' ∉ before ++ '.' :: p.text := by
      rw [List.mem_append]
      exact fun hmem => hmem.elim hbefore p.lineFeed_not_mem
    obtain ⟨htokens, herrors⟩ := ih hbehind
    have hitem : p.piece.item? (Cursor.behind before)
        = some (.error ⟨p.cause, ⟨1, 1 + before.length⟩⟩) := by
      rw [ChainPart.piece, Piece.item?_error, Place.behind_of_not_mem hbefore]
    have hpast : (Cursor.behind before).past p.piece.text
        = Cursor.behind (before ++ '.' :: p.text) := Cursor.past_behind before _
    rw [List.map_cons, Piece.itemsFrom_cons, hitem, hpast]
    constructor
    · simpa using htokens
    · simpa [dotReports, LexicalError.report, LexicalError.message] using herrors

/-- If a rejected numeral stands in front of dots and parts, none of them is a token, and the
numeral and each dot are reported. -/
lemma Numeral.scan_dotted {text whole fraction : List Char} {parts : List ChainPart}
    (h : Numeral text whole fraction) (hparts : parts ≠ [])
    (hwhole : fraction = [] → ∀ fs hfs others, parts ≠ .digits fs hfs :: others) :
    (scan (String.ofList (text ++ dotted parts))).body = [] ∧
      (scan (String.ofList (text ++ dotted parts))).errors.map LexicalError.report
        = ("Invalid Number", ⟨1, 1⟩) :: dotReports text parts := by
  have hline : '\n' ∉ text := fun hmem => h.not_blank _ hmem (by decide)
  have hps := Segmentation.cons (h.isSegment_dotted hparts hwhole) (segmentation_dotted parts)
  obtain ⟨htokens, herrors⟩ := items_dotted hline parts
  have hitems : (Scan.ofString (String.ofList (text ++ dotted parts))).items
      = .error ⟨.invalidNumber, ⟨1, 1⟩⟩
        :: Piece.itemsFrom (Cursor.behind text) (parts.map ChainPart.piece) := by
    rw [Scan.ofString, String.toList_ofList, hps.items_eq, Piece.itemsFrom_cons, Cursor.past_start]
    rfl
  rw [body_scan, errors_scan, hitems, List.filterMap_cons_none (Item.token?_error _),
    List.filterMap_cons_some (Item.error?_error _), List.map_cons, herrors]
  exact ⟨htokens, rfl⟩

/-- **Dotted chains never leak a token.**  Digits with parts behind them, each a run of digits or a
name with a dot in front of it, are scanned without a token, unless they are a number: digits with
one part, which is a run of digits.  The errors are, in their order, one at the first digit of the
chain and one at each dot outside the numeral that the chain begins with. -/
theorem scan_dottedChain {ds : List Char} {parts : List ChainPart} (hds : Digits ds)
    (hparts : parts ≠ []) (hnumber : ∀ fs hfs, parts ≠ [.digits fs hfs]) :
    (∃ close : Token, close.kind = .endOfFile ∧
      (scan (String.ofList (ds ++ dotted parts))).tokens = [close]) ∧
    (scan (String.ofList (ds ++ dotted parts))).errors.map (fun e => (e.message, e.place))
      = chainReports ds parts := by
  have hreports : (scan (String.ofList (ds ++ dotted parts))).body = [] ∧
      (scan (String.ofList (ds ++ dotted parts))).errors.map LexicalError.report
        = chainReports ds parts := by
    cases parts with
    | nil => exact absurd rfl hparts
    | cons p others =>
      cases p with
      | name w hw => exact (Numeral.whole hds).scan_dotted hparts (by simp)
      | digits fs hfs =>
        -- the first part belongs to the numeral, and the chain has another one
        have hothers : others ≠ [] := by
          rintro rfl
          exact hnumber fs hfs rfl
        have hscan := (Numeral.pointed hds hfs).scan_dotted hothers fun hnil => absurd hnil hfs.1
        rw [dotted_cons, ← List.append_assoc]
        exact hscan
  obtain ⟨hbody, herrors⟩ := hreports
  have htokens := tokens_scan (String.ofList (ds ++ dotted parts))
  rw [hbody] at htokens
  exact ⟨⟨_, rfl, htokens⟩, herrors⟩

/-- A chain that begins with a number: the first dot belongs to it, and the other two are
reported. -/
theorem scan_dottedChain_of_three_parts :
    ∃ parts, String.ofList (['1'] ++ dotted parts) = "1.2.x.05" ∧ Digits ['1'] ∧ parts ≠ [] ∧
      (∀ fs hfs, parts ≠ [.digits fs hfs]) ∧
      (∃ close : Token, close.kind = .endOfFile ∧ (scan "1.2.x.05").tokens = [close]) ∧
      (scan "1.2.x.05").errors.map (fun e => (e.message, e.place))
        = [("Invalid Number", ⟨1, 1⟩), ("Invalid identifier: cannot start with a dot", ⟨1, 4⟩),
          ("Invalid Number", ⟨1, 6⟩)] := by
  have hone : Digits ['1'] := ⟨List.cons_ne_nil _ _, by simp [Digit]⟩
  have htwo : Digits ['2'] := ⟨List.cons_ne_nil _ _, by simp [Digit]⟩
  have hfive : Digits ['0', '5'] := ⟨List.cons_ne_nil _ _, by simp [Digit]⟩
  have hletter : Letter 'x' := by decide
  have hname : Word ['x'] := ⟨⟨'x', rfl, hletter⟩, by simpa using hletter.wordChar⟩
  have hnumber : ∀ fs hfs,
      [.digits _ htwo, .name _ hname, .digits _ hfive] ≠ [ChainPart.digits fs hfs] := by simp
  have hscan := scan_dottedChain hone (List.cons_ne_nil _ _) hnumber
  exact ⟨_, rfl, hone, List.cons_ne_nil _ _, hnumber, hscan⟩

end ScriptLexer

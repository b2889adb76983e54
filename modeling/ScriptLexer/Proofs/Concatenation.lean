/-
# Concatenation of texts

Nothing but an open string goes on behind a line feed.  So two texts with a line feed between them
fall into the pieces of the one, the line feed and the pieces of the other, and all that a scan
carries from the first text into the second is its cursor.  Since the cursor stands in the first
column there, what is found in the second text is what is found in it alone, so many lines further
down and so many bytes further on.
-/
import ScriptLexer.Proofs.Segment.Context
import ScriptLexer.Proofs.Position
import ScriptLexer.Proofs.Relocation

namespace ScriptLexer

/-! ## Shifts -/

/-- How positions move when whole lines are put in front of a text: so many lines down and so many
bytes on. -/
def Relocation.shift (lines bytes : Nat) : Relocation where
  place p := ⟨p.line + lines, p.column⟩
  span s := ⟨s.start + bytes, s.stop + bytes⟩

/-- A cursor moves down and on. -/
def Cursor.shift (lines bytes : Nat) (k : Cursor) : Cursor :=
  ⟨k.offset + bytes, (Relocation.shift lines bytes).place k.place⟩

lemma Cursor.shift_advance (lines bytes : Nat) (k : Cursor) (c : Char) :
    (k.advance c).shift lines bytes = (k.shift lines bytes).advance c := by
  have hplace : (Relocation.shift lines bytes).place (k.place.advance c)
      = ((Relocation.shift lines bytes).place k.place).advance c := by
    rw [Place.advance, Place.advance]
    split
    · simp only [Relocation.shift, Nat.add_right_comm]
    · rfl
  rw [advance, advance, shift, shift, hplace, Nat.add_right_comm]

lemma Cursor.shift_past (lines bytes : Nat) (k : Cursor) (cs : List Char) :
    (k.past cs).shift lines bytes = (k.shift lines bytes).past cs := by
  induction cs generalizing k with
  | nil => rfl
  | cons c cs ih => rw [past_cons, past_cons, ih, shift_advance]

lemma Relocation.carries_shift (lines bytes : Nat) (k : Cursor) :
    (shift lines bytes).Carries k (k.shift lines bytes) where
  place_past cs := by
    rw [← Cursor.shift_past]
    rfl
  span_past xs ys := by
    rw [← Cursor.shift_past, ← Cursor.shift_past]
    rfl

/-- The shift of a text that is put behind the text `source` and a line feed. -/
def Shift.behind (source : String) : Relocation :=
  .shift (1 + source.toList.count '\n') (source.utf8ByteSize + 1)

/-- The start of a text is carried to the place behind another text and a line feed. -/
lemma Shift.carries_behind (source : String) :
    (Shift.behind source).Carries Cursor.start (Cursor.behind (source.toList ++ ['\n'])) := by
  have hcursor : Cursor.behind (source.toList ++ ['\n'])
      = Cursor.start.shift (1 + source.toList.count '\n') (source.utf8ByteSize + 1) := by
    have hsize : byteSize source.toList + 1 = 0 + (source.utf8ByteSize + 1) := by
      rw [byteSize_toList, Nat.zero_add]
    have hline : 1 + source.toList.count '\n' + 1 = 1 + (1 + source.toList.count '\n') :=
      Nat.add_comm _ 1
    calc Cursor.behind (source.toList ++ ['\n'])
        = (Cursor.behind source.toList).advance '\n' := Cursor.behind_append_singleton _ _
      _ = ⟨byteSize source.toList + 1, ⟨1 + source.toList.count '\n' + 1, 1⟩⟩ := rfl
      _ = ⟨0 + (source.utf8ByteSize + 1), ⟨1 + (1 + source.toList.count '\n'), 1⟩⟩ := by
        rw [hsize, hline]
      _ = Cursor.start.shift (1 + source.toList.count '\n') (source.utf8ByteSize + 1) := rfl
  rw [hcursor]
  exact Relocation.carries_shift _ _ _

/-! ## Pieces on both sides of a line feed -/

/-- Two texts with a line feed between them fall into the pieces of both, if no string is left open
in the first. -/
lemma Segmentation.append_lineFeed {cs ds : List Char} {ps qs : List Piece}
    (hcs : Segmentation cs ps) (hopen : ∀ p ∈ ps, p.outcome ≠ .error .unterminatedString)
    (hds : Segmentation ds qs) :
    Segmentation (cs ++ '\n' :: ds) (ps ++ ⟨['\n'], .nothing⟩ :: qs) := by
  induction hcs with
  | nil => exact .cons (.blank (by decide)) hds
  | @cons text rest outcome ps hseg _ ih =>
    have hseg' := hseg.append_blank (d := '\n') (by decide) (fun _ => rfl)
      (hopen _ List.mem_cons_self) ds
    have hrest := ih fun p hp => hopen p (List.mem_cons_of_mem _ hp)
    rw [List.append_assoc]
    exact .cons hseg' hrest

lemma Segmentation.outcome_ne_unterminatedString {source : String} {ps : List Piece}
    (h : Segmentation source.toList ps)
    (herrors : ∀ e ∈ (scan source).errors, e.message ≠ "Unterminated String.") :
    ∀ p ∈ ps, p.outcome ≠ .error .unterminatedString := by
  intro p hp hopen
  obtain ⟨before, after, rfl⟩ := List.append_of_mem hp
  -- the piece stands for an error that is among the errors of the whole scan
  have herror : ∃ place, ⟨.unterminatedString, place⟩ ∈ (scan source).errors := by
    refine ⟨(Cursor.start.past (Piece.textOf before)).place, ?_⟩
    rw [errors_scan, Scan.ofString, h.items_eq, Piece.itemsFrom_append, Piece.itemsFrom_cons]
    simp [Piece.item?, Segment.item?, hopen]
  obtain ⟨place, hmem⟩ := herror
  exact herrors _ hmem rfl

/-- **A line feed separates texts.**  If no string is left open in the text `a`, a line feed and a
text `b` behind it do not change what is found in `a`, and what is found in `b` is what is found
in `b` alone, shifted by the lines and by the bytes of `a` and the line feed. -/
theorem scan_append_lineFeed (a b : String)
    (h : ∀ e ∈ (scan a).errors, e.message ≠ "Unterminated String.") :
    scan (a ++ "\n" ++ b) = {
      tokens := (scan a).body ++ (scan b).tokens.map (Shift.behind a).token
      errors := (scan a).errors ++ (scan b).errors.map (Shift.behind a).error } := by
  obtain ⟨ps, hps⟩ := Segmentation.exists_pieces a.toList
  obtain ⟨qs, hqs⟩ := Segmentation.exists_pieces b.toList
  have htext : (a ++ "\n" ++ b).toList = a.toList ++ '\n' :: b.toList := by
    rw [String.toList_append, String.toList_append, List.append_assoc]
    rfl
  have hboth : Segmentation (a ++ "\n" ++ b).toList (ps ++ ⟨['\n'], .nothing⟩ :: qs) := by
    rw [htext]
    exact hps.append_lineFeed (hps.outcome_ne_unterminatedString h) hqs
  -- behind the line feed everything is counted from the start of `b`, shifted
  have hcursor : (Cursor.start.past a.toList).past ['\n'] = Cursor.behind (a.toList ++ ['\n']) := by
    rw [← Cursor.past_append, Cursor.past_start]
  have hcarries := Shift.carries_behind a
  have hitems : (Scan.ofString (a ++ "\n" ++ b)).items
      = (Scan.ofString a).items ++ (Scan.ofString b).items.map (Shift.behind a).item := by
    rw [Scan.ofString, Scan.ofString, Scan.ofString, hboth.items_eq, hps.items_eq, hqs.items_eq,
      Piece.itemsFrom_append, hps.textOf_eq, Piece.itemsFrom_cons, hcursor, hcarries.itemsFrom]
    rfl
  have hend : Token.endOfFile (Cursor.start.past (a ++ "\n" ++ b).toList)
      = (Shift.behind a).token (.endOfFile (Cursor.start.past b.toList)) := by
    rw [htext, Cursor.past_append, ← List.singleton_append, Cursor.past_append, hcursor,
      (hcarries.past b.toList).endOfFile]
  rw [scan_eq (a ++ "\n" ++ b), hitems, hend, List.filterMap_append, List.filterMap_append,
    Relocation.filterMap_token?_map_item, Relocation.filterMap_error?_map_item,
    body_scan, errors_scan, scan_eq b, List.map_append, List.append_assoc, List.map_singleton]

/-- A numeral that ends in a dot is an error on the first line, where an open string may not be,
and nothing on the second line is changed by it. -/
theorem scan_two_lines :
    (∀ e ∈ (scan "é 12.").errors, e.message ≠ "Unterminated String.") ∧
      scan ("é 12." ++ "\n" ++ "x\n\"") = {
        tokens := [⟨.identifier, "x", none, ⟨2, 1⟩, ⟨7, 8⟩⟩,
          ⟨.endOfFile, "", none, ⟨3, 2⟩, ⟨10, 10⟩⟩]
        errors := [⟨.unexpectedCharacter 'é', ⟨1, 1⟩⟩, ⟨.invalidNumber, ⟨1, 3⟩⟩,
          ⟨.unterminatedString, ⟨3, 1⟩⟩] } := by
  have h : ∀ e ∈ (scan "é 12.").errors, e.message ≠ "Unterminated String." := by decide +kernel
  refine ⟨h, (scan_append_lineFeed _ _ h).trans ?_⟩
  decide +kernel

end ScriptLexer

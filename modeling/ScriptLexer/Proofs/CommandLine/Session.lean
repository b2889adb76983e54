/-
# What a session comes to

Without a script the program reads its input line by line until it stops, and reports on each line
by itself.  So a session can be told from the lines that it reads and from what stops it
(`Session.converse_eq`): no line has a part in what is written about another, and nothing has that
stands behind the line which stops the session.

The lines are taken from the bytes.  Which pieces the bytes fall into, and what a piece says, is
described without the functions that cut and trim (`Lines`, `Says`), and proved of these.
-/
import ScriptLexer.Proofs.CommandLine.Log
import ScriptLexer.Proofs.Position

namespace ScriptLexer.CommandLine

/-! ## Lines -/

/-- The bytes fall into pieces, each with one line feed, which ends it; the last may lack one. -/
inductive Lines : List UInt8 → List (List UInt8) → Prop
  /-- There are no bytes. -/
  | nil : Lines [] []
  /-- The last piece lacks the line feed. -/
  | last {piece : List UInt8} : piece ≠ [] → lineFeed ∉ piece → Lines piece [piece]
  /-- A piece with its line feed, and the pieces of the rest. -/
  | cons {before rest : List UInt8} {pieces : List (List UInt8)} :
      lineFeed ∉ before → Lines rest pieces →
      Lines (before ++ lineFeed :: rest) ((before ++ [lineFeed]) :: pieces)

lemma splitLines_nil : splitLines [] = [] := by
  unfold splitLines
  rfl

lemma splitLines_of_not_mem {piece : List UInt8} (hne : piece ≠ []) (h : lineFeed ∉ piece) :
    splitLines piece = [piece] := by
  have hdrop : piece.dropWhile (· != lineFeed) = [] := by
    rw [List.dropWhile_eq_nil_iff]
    intro b hb
    simpa using ne_of_mem_of_not_mem hb h
  unfold splitLines
  split
  · simp [hne]
  · next hcons => exact absurd (hdrop.symm.trans hcons) (by simp)

lemma splitLines_append_cons {before : List UInt8} (h : lineFeed ∉ before) (rest : List UInt8) :
    splitLines (before ++ lineFeed :: rest) = (before ++ [lineFeed]) :: splitLines rest := by
  have hbefore : ∀ b ∈ before, (b != lineFeed) = true := by
    intro b hb
    simpa using ne_of_mem_of_not_mem hb h
  have hdrop : (before ++ lineFeed :: rest).dropWhile (· != lineFeed) = lineFeed :: rest := by
    rw [List.dropWhile_append_of_pos hbefore, List.dropWhile_cons_of_neg (by simp)]
  have htake : (before ++ lineFeed :: rest).takeWhile (· != lineFeed) = before := by
    rw [List.takeWhile_append_of_pos hbefore, List.takeWhile_cons_of_neg (by simp),
      List.append_nil]
  rw [splitLines]
  split
  · next hnil => exact absurd (hdrop.symm.trans hnil) (by simp)
  · next b rest' hcons =>
    obtain ⟨rfl, rfl⟩ := List.cons.inj (hdrop.symm.trans hcons)
    rw [htake]

namespace Lines

variable {bytes more piece : List UInt8} {pieces others : List (List UInt8)}

/-- The bytes are cut into the pieces that they fall into. -/
lemma splitLines_eq (h : Lines bytes pieces) : splitLines bytes = pieces := by
  induction h with
  | nil => exact splitLines_nil
  | last hne hnot => exact splitLines_of_not_mem hne hnot
  | cons hnot _ ih => rw [splitLines_append_cons hnot, ih]

lemma exists_pieces (bytes : List UInt8) : ∃ pieces, Lines bytes pieces := by
  induction hlen : bytes.length using Nat.strong_induction_on generalizing bytes with
  | _ n ih =>
    by_cases hmem : lineFeed ∈ bytes
    · obtain ⟨before, rest, rfl, hnot⟩ := List.eq_append_cons_of_mem hmem
      obtain ⟨pieces, hpieces⟩ := ih rest.length (by simp [← hlen]; omega) rest rfl
      exact ⟨_, .cons hnot hpieces⟩
    · rcases eq_or_ne bytes [] with rfl | hne
      · exact ⟨_, .nil⟩
      · exact ⟨_, .last hne hmem⟩

/-- Behind a line feed the pieces of what follows begin. -/
lemma append (h : Lines bytes pieces) (hend : ∀ b ∈ bytes.getLast?, b = lineFeed)
    (hmore : Lines more others) : Lines (bytes ++ more) (pieces ++ others) := by
  induction h with
  | nil => exact hmore
  | @last piece hne hnot =>
    have hlast := List.getLast?_eq_some_getLast hne
    exact absurd (hend _ hlast ▸ List.mem_of_getLast? hlast) hnot
  | @cons before rest pieces hnot hrest ih =>
    rw [List.append_assoc, List.cons_append, List.cons_append]
    refine .cons hnot (ih fun b hb => hend b ?_)
    rw [List.getLast?_append, List.getLast?_cons, Option.mem_def.1 hb]
    rfl

/-- A line feed is the last byte of a piece. -/
lemma lineFeed_not_mem_dropLast (h : Lines bytes pieces) (hmem : piece ∈ pieces) :
    lineFeed ∉ piece.dropLast := by
  induction h with
  | nil => simp at hmem
  | last _ hnot =>
    obtain rfl := List.mem_singleton.1 hmem
    exact fun hfeed => hnot (List.dropLast_subset _ hfeed)
  | cons hnot _ ih =>
    rcases List.mem_cons.1 hmem with rfl | hmem
    · rwa [List.dropLast_concat]
    · exact ih hmem

end Lines

/-! ## What a line says -/

/-- The characters that are taken off the end of a line. -/
def EndsLine (c : Char) : Prop := c = '\n' ∨ c = '\r'

/-- The piece is the encoding of the line and of characters that end it, all of which are taken
off. -/
structure Says (piece : List UInt8) (line : String) : Prop where
  /-- The piece is the line with an ending. -/
  encoded : ∃ ending : List Char, (∀ c ∈ ending, EndsLine c) ∧
    (line ++ String.ofList ending).toUTF8 = piece.toByteArray
  /-- Nothing is left to take off. -/
  trimmed : ∀ c ∈ line.toList.getLast?, ¬ EndsLine c

/-- The piece is the encoding of no text. -/
def NotText (piece : List UInt8) : Prop := ∀ text : String, text.toUTF8 ≠ piece.toByteArray

lemma exists_ending (text : String) :
    ∃ ending : List Char, (∀ c ∈ ending, EndsLine c) ∧
      trimLineEnd text ++ String.ofList ending = text := by
  refine ⟨(text.toList.reverse.takeWhile fun c => c == '\n' || c == '\r').reverse, ?_, ?_⟩
  · intro c hc
    simpa [EndsLine] using List.mem_takeWhile_imp (List.mem_reverse.1 hc)
  · rw [trimLineEnd, ← String.ofList_append, ← List.reverse_append, List.takeWhile_append_dropWhile,
      List.reverse_reverse, String.ofList_toList]

lemma not_endsLine_trimLineEnd (text : String) :
    ∀ c ∈ (trimLineEnd text).toList.getLast?, ¬ EndsLine c := by
  intro c hc
  rw [trimLineEnd, String.toList_ofList, List.getLast?_reverse, Option.mem_def] at hc
  have hnot := List.head?_dropWhile_not (fun c => c == '\n' || c == '\r') text.toList.reverse
  rw [hc] at hnot
  simpa [EndsLine] using hnot

/-- Trimming takes off all of an ending, and no more. -/
lemma trimLineEnd_append {line : String} {ending : List Char} (hending : ∀ c ∈ ending, EndsLine c)
    (hline : ∀ c ∈ line.toList.getLast?, ¬ EndsLine c) :
    trimLineEnd (line ++ String.ofList ending) = line := by
  have hdrop : ∀ c ∈ ending.reverse, (c == '\n' || c == '\r') = true := by
    intro c hc
    simpa [EndsLine] using hending c (List.mem_reverse.1 hc)
  have hkeep : line.toList.reverse.dropWhile (fun c => c == '\n' || c == '\r')
      = line.toList.reverse := by
    rw [List.dropWhile_eq_self_iff]
    intro hpos
    have hne : line.toList ≠ [] := by simpa using List.ne_nil_of_length_pos hpos
    rw [List.getElem_zero, List.head_reverse]
    simpa [EndsLine] using hline _ (List.getLast_mem_getLast? hne)
  rw [trimLineEnd, String.toList_append, String.toList_ofList, List.reverse_append,
    List.dropWhile_append_of_pos hdrop, hkeep, List.reverse_reverse, String.ofList_toList]

/-- Every piece says a line, or is no text. -/
lemma exists_says_or_notText (piece : List UInt8) : (∃ line, Says piece line) ∨ NotText piece := by
  by_cases h : ∃ text : String, text.toUTF8 = piece.toByteArray
  · obtain ⟨text, htext⟩ := h
    obtain ⟨ending, hending, heq⟩ := exists_ending text
    have hencoded := (congrArg String.toUTF8 heq).trans htext
    exact .inl ⟨trimLineEnd text, ⟨ending, hending, hencoded⟩, not_endsLine_trimLineEnd text⟩
  · exact .inr fun text htext => h ⟨text, htext⟩

/-! ## Rounds -/

namespace Says

variable {piece : List UInt8} {line : String}

lemma round_eq (h : Says piece line) :
    Round.ofLine piece = if line = "exit" then ⟨[], some .success⟩ else ⟨report line, none⟩ := by
  obtain ⟨ending, hending, hencoded⟩ := h.encoded
  rw [Round.ofLine, ← hencoded, fromUTF8?_toUTF8]
  simp only [trimLineEnd_append hending h.trimmed]

lemma exists_eq_flatMap (h : Says piece line) :
    ∃ ending, piece = (line.toList ++ ending).flatMap String.utf8EncodeChar := by
  obtain ⟨ending, -, hencoded⟩ := h.encoded
  refine ⟨ending, ?_⟩
  rw [← List.toByteArray_inj, ← hencoded, String.toUTF8_eq_toByteArray, ← String.utf8Encode_toList,
    String.toList_append, String.toList_ofList, List.utf8Encode]

/-- What a piece says holds no line feed if the piece holds none but at its end. -/
lemma lineFeed_not_mem (h : Says piece line) (hpiece : lineFeed ∉ piece.dropLast) :
    '\n' ∉ line.toList := by
  intro hmem
  obtain ⟨before, after, hline, -⟩ := List.eq_append_cons_of_mem hmem
  have hafter : after ≠ [] := by
    rintro rfl
    exact h.trimmed '\n' (by simp [hline]) (.inl rfl)
  -- so the byte of the line feed stands in the piece with others behind it
  obtain ⟨ending, hbytes⟩ := h.exists_eq_flatMap
  have hrest : (after ++ ending).flatMap String.utf8EncodeChar ≠ [] := by
    obtain ⟨c, cs, rfl⟩ := List.exists_cons_of_ne_nil hafter
    simp [String.utf8EncodeChar_ne_nil]
  have hbytes' : piece = before.flatMap String.utf8EncodeChar ++
      lineFeed :: (after ++ ending).flatMap String.utf8EncodeChar := by
    rw [hbytes, hline, List.append_assoc, List.flatMap_append]
    rfl
  rw [hbytes', List.dropLast_append_of_ne_nil (List.cons_ne_nil _ _),
    List.dropLast_cons_of_ne_nil hrest] at hpiece
  exact hpiece (by simp)

end Says

lemma NotText.round_eq {piece : List UInt8} (h : NotText piece) :
    Round.ofLine piece
      = ⟨[.complaint "stream did not contain valid UTF-8\n"], some .unreadable⟩ := by
  rw [Round.ofLine, fromUTF8?_eq_none_iff.2 h]
  rfl

/-! ## Sessions -/

/-- What a session stops at. -/
inductive Stop
  | endOfInput
  /-- A line that says `exit`. -/
  | exit
  /-- A piece that is no text. -/
  | notText
deriving DecidableEq, Repr

/-- A session on the pieces reports on the lines, and then it stops: the lines are what the pieces
say in front of the first that says `exit` or is no text. -/
inductive Session : List (List UInt8) → List String → Stop → Prop
  /-- There is nothing more to read. -/
  | endOfInput : Session [] [] .endOfInput
  /-- The next piece says `exit`. -/
  | exit {piece : List UInt8} {rest : List (List UInt8)} :
      Says piece "exit" → Session (piece :: rest) [] .exit
  /-- The next piece is no text. -/
  | notText {piece : List UInt8} {rest : List (List UInt8)} :
      NotText piece → Session (piece :: rest) [] .notText
  /-- The next piece says a line to report on. -/
  | line {piece : List UInt8} {rest : List (List UInt8)} {line : String} {lines : List String}
      {stop : Stop} :
      Says piece line → line ≠ "exit" → Session rest lines stop →
      Session (piece :: rest) (line :: lines) stop

/-- What is written where a session stops. -/
def Stop.chunks : Stop → List Chunk
  | notText => [.complaint "stream did not contain valid UTF-8\n"]
  | _ => []

/-- How the program ends when a session has stopped. -/
def Stop.status : Stop → ExitStatus
  | notText => .unreadable
  | _ => .success

/-- What a session writes that reports on the lines and stops: the prompt and the report for each
line, and the prompt once more. -/
def sessionChunks (lines : List String) (stop : Stop) : List Chunk :=
  lines.flatMap (fun line => .output promptText :: report line) ++
    .output promptText :: stop.chunks

namespace Session

variable {pieces : List (List UInt8)} {lines : List String} {stop : Stop}

/-- Every input makes a session. -/
lemma exists_lines (pieces : List (List UInt8)) : ∃ lines stop, Session pieces lines stop := by
  induction pieces with
  | nil => exact ⟨_, _, .endOfInput⟩
  | cons piece rest ih =>
    obtain ⟨lines, stop, hrest⟩ := ih
    rcases exists_says_or_notText piece with ⟨line, hsaid⟩ | hnot
    · by_cases hline : line = "exit"
      · exact ⟨_, _, .exit (hline ▸ hsaid)⟩
      · exact ⟨_, _, .line hsaid hline hrest⟩
    · exact ⟨_, _, .notText hnot⟩

/-- What a session writes follows from its lines and what stops it. -/
lemma converse_eq (h : Session pieces lines stop) :
    converse pieces = ⟨sessionChunks lines stop, stop.status⟩ := by
  induction h with
  | endOfInput => rfl
  | exit hsaid =>
    unfold converse
    simp only [hsaid.round_eq, if_true]
    rfl
  | notText hnot =>
    unfold converse
    simp only [hnot.round_eq]
    rfl
  | line hsaid hline _ ih =>
    unfold converse
    simp only [hsaid.round_eq, if_neg hline, ih, sessionChunks, List.flatMap_cons,
      List.append_assoc, List.cons_append]

/-- A session that has stopped pays no heed to more pieces. -/
lemma append (h : Session pieces lines stop) (hstop : stop ≠ .endOfInput)
    (more : List (List UInt8)) : Session (pieces ++ more) lines stop := by
  induction h with
  | endOfInput => exact absurd rfl hstop
  | exit hsaid => exact .exit hsaid
  | notText hnot => exact .notText hnot
  | line hsaid hline _ ih => exact .line hsaid hline (ih hstop)

/-- The lines hold no line feeds if the pieces hold none but at their ends. -/
lemma lineFeed_not_mem (h : Session pieces lines stop)
    (hpieces : ∀ piece ∈ pieces, lineFeed ∉ piece.dropLast) :
    ∀ line ∈ lines, '\n' ∉ line.toList := by
  induction h with
  | endOfInput => simp
  | exit => simp
  | notText => simp
  | line hsaid _ _ ih =>
    rw [List.forall_mem_cons] at hpieces ⊢
    exact ⟨hsaid.lineFeed_not_mem hpieces.1, ih hpieces.2⟩

end Session

/-! ## Runs -/

lemma outputOf_sessionChunks (lines : List String) (stop : Stop) :
    outputOf (sessionChunks lines stop) = String.join (lines.map fun line => "> " ++
      if (scan line).errors = [] then String.join (tokenLines (scan line)) else "") ++ "> " := by
  have hline : ∀ line, outputOf (.output promptText :: report line) = "> " ++
      if (scan line).errors = [] then String.join (tokenLines (scan line)) else "" := by
    intro line
    rw [outputOf_output_cons, outputOf_report]
    rfl
  have hstop : outputOf (.output promptText :: stop.chunks) = "> " := by
    cases stop <;> rfl
  rw [sessionChunks, outputOf_append, outputOf_flatMap, hstop]
  simp only [hline]

lemma complaintsOf_sessionChunks (lines : List String) (stop : Stop) :
    complaintsOf (sessionChunks lines stop) = (lines.flatMap fun line => errorLines (scan line)) ++
      if stop = .notText then ["stream did not contain valid UTF-8\n"] else [] := by
  have hline : ∀ line, complaintsOf (.output promptText :: report line)
      = errorLines (scan line) := fun line => complaintsOf_report
  have hstop : complaintsOf (.output promptText :: stop.chunks)
      = if stop = .notText then ["stream did not contain valid UTF-8\n"] else [] := by
    cases stop <;> rfl
  rw [sessionChunks, complaintsOf_append, complaintsOf_flatMap, hstop]
  simp only [hline]

variable {call : Call} {s : Settings} {lines : List String} {stop : Stop}

/-- A call without a script holds a session on its input. -/
lemma Call.transcript_of_session {pieces : List (List UInt8)} (hscript : s.script = none)
    (hpieces : Lines call.input.toList pieces) (h : Session pieces lines stop) :
    call.transcript s
      = ⟨.output bannerText :: sessionChunks lines stop, stop.status⟩ := by
  rw [Call.transcript, hscript]
  simp only [runPrompt, hpieces.splitLines_eq, h.converse_eq]

/-- What a run comes to whose session reports on the lines and stops. -/
structure SessionRun (lines : List String) (stop : Stop) (log : LogSettings) (r : Result) :
    Prop where
  /-- Behind the banner there is the prompt and, if it has no errors, what a line consists of. -/
  output : r.output = "Omix Interpreter\nType 'exit' to quit\n" ++
    String.join (lines.map fun line => "> " ++
      if (scan line).errors = [] then String.join (tokenLines (scan line)) else "") ++ "> "
  /-- With a quiet log there are the errors of the lines, and one message for what is no text. -/
  errorOutput : log.Quiet → r.errorOutput =
    String.join (lines.flatMap fun line => errorLines (scan line)) ++
      if stop = .notText then "stream did not contain valid UTF-8\n" else ""
  /-- The lines have no part in how the run ends. -/
  exitCode : r.exitCode = if stop = .notText then 70 else 0
  /-- All tokens and errors of a line are on the first line. -/
  line_eq_one : ∀ line ∈ lines, (∀ t ∈ (scan line).tokens, t.place.line = 1) ∧
    ∀ e ∈ (scan line).errors, e.place.line = 1

lemma sessionRun_run {pieces : List (List UInt8)}
    (hsettings : settings call.arguments call.environment = .ok s) (hscript : s.script = none)
    (hpieces : Lines call.input.toList pieces) (h : Session pieces lines stop) (time : String) :
    SessionRun lines stop s.log (call.run time) := by
  rw [Call.run_eq hsettings, Call.transcript_of_session hscript hpieces h]
  constructor
  · simp only [outputOf_output_cons, outputOf_sessionChunks, String.append_assoc]
    rfl
  · intro hquiet
    have hcomplaints : complaintsOf (.output bannerText :: sessionChunks lines stop)
        = complaintsOf (sessionChunks lines stop) := rfl
    simp only [Transcript.errorOutput_of_quiet hquiet, hcomplaints, complaintsOf_sessionChunks,
      String.join_append]
    split <;> rfl
  · cases stop <;> rfl
  · intro line hline
    have hfeed := h.lineFeed_not_mem (fun _ => hpieces.lineFeed_not_mem_dropLast) line hline
    exact ⟨fun _ => Token.line_eq_one hfeed, fun _ => LexicalError.line_eq_one hfeed⟩

/-- **A session reports on each of its lines by itself.**  Every input falls into lines, and these
make a session.  What is printed and complained of is the one report behind the other, and the exit
code tells only whether the session stopped at what is no text.  Whatever stands behind a line that
stops the session makes no difference. -/
theorem run_session (call : Call) (s : Settings) (time : String)
    (hsettings : settings call.arguments call.environment = .ok s) (hscript : s.script = none) :
    (∃ pieces lines stop, Lines call.input.toList pieces ∧ Session pieces lines stop) ∧
    (∀ pieces lines stop, Lines call.input.toList pieces → Session pieces lines stop →
      SessionRun lines stop s.log (call.run time)) ∧
    (∀ bytes pieces lines stop, Lines bytes pieces → Session pieces lines stop →
      stop ≠ .endOfInput → bytes.getLast? = some lineFeed → bytes <+: call.input.toList →
      ∀ other : ByteArray, bytes <+: other.toList →
        Call.run { call with input := other } time = call.run time) := by
  refine ⟨?_, fun _ _ _ hpieces h => sessionRun_run hsettings hscript hpieces h time, ?_⟩
  · obtain ⟨pieces, hpieces⟩ := Lines.exists_pieces call.input.toList
    obtain ⟨lines, stop, h⟩ := Session.exists_lines pieces
    exact ⟨pieces, lines, stop, hpieces, h⟩
  · intro bytes pieces lines stop hpieces h hstop hend hprefix other hother
    -- on either input the session has stopped before it comes to what the inputs differ in
    have htranscript : ∀ input : ByteArray, bytes <+: input.toList →
        Call.transcript { call with input } s
          = ⟨.output bannerText :: sessionChunks lines stop, stop.status⟩ := by
      rintro input ⟨more, hmore⟩
      obtain ⟨others, hothers⟩ := Lines.exists_pieces more
      have hall := hpieces.append (by simp [hend]) hothers
      rw [hmore] at hall
      exact Call.transcript_of_session hscript hall (h.append hstop others)
    have hrun := @Call.run_eq { call with input := other } s hsettings time
    rw [hrun, Call.run_eq hsettings, htranscript other hother, htranscript call.input hprefix]

/-- A call of the program that finds three lines on standard input, which are a numeral, an
unexpected character and a byte that begins no character, and then the given bytes. -/
def callForSession (more : List UInt8) : Call where
  arguments := []
  environment := ⟨none, none, none⟩
  input := ([49, 13, 10, 64, 10, 255, 10] ++ more).toByteArray
  fileAt _ := .error .notFound

/-- The session reports on the first two lines and stops at the third, so that a name behind it
makes no difference. -/
theorem run_session_of_three_lines :
    settings [] ⟨none, none, none⟩ = .ok ⟨none, ⟨.upTo .warn, .coloured⟩⟩ ∧
      Lines [49, 13, 10, 64, 10, 255, 10] [[49, 13, 10], [64, 10], [255, 10]] ∧
      Session [[49, 13, 10], [64, 10], [255, 10]] ["1", "@"] .notText ∧
      ((callForSession []).run "12:00").exitCode = 70 ∧
      ((callForSession []).run "12:00").output = "Omix Interpreter\nType 'exit' to quit\n" ++
        ("> Type: Number, Lexeme: 1, Literal: 1, Line: 1, Column: 1\n" ++
          "Type: Eof, Lexeme: , Literal: nil, Line: 1, Column: 2\n") ++ "> " ++ "> " ∧
      ((callForSession []).run "12:00").errorOutput =
        "[LexicalPhase]: ErrorMessage: Unexpected character: @ at line 1, column 1\n" ++
          "stream did not contain valid UTF-8\n" ∧
      (callForSession [120]).run "12:00" = (callForSession []).run "12:00" := by
  have hsettings : settings [] ⟨none, none, none⟩ = .ok ⟨none, ⟨.upTo .warn, .coloured⟩⟩ := by rfl
  have hpieces : Lines [49, 13, 10, 64, 10, 255, 10] [[49, 13, 10], [64, 10], [255, 10]] :=
    @Lines.cons [49, 13] _ _ (by decide) (@Lines.cons [64] _ _ (by decide)
      (@Lines.cons [255] _ _ (by decide) .nil))
  have hnumeral : Says [49, 13, 10] "1" :=
    ⟨⟨['\r', '\n'], by simp [EndsLine], by decide +kernel⟩, by simp [EndsLine]⟩
  have hsign : Says [64, 10] "@" :=
    ⟨⟨['\n'], by simp [EndsLine], by decide +kernel⟩, by simp [EndsLine]⟩
  have hnot : NotText [255, 10] := fromUTF8?_eq_none_iff.1 (by decide +kernel)
  have hsession : Session [[49, 13, 10], [64, 10], [255, 10]] ["1", "@"] .notText :=
    .line hnumeral (by decide) (.line hsign (by decide) (.notText hnot))
  have hinput : (callForSession []).input.toList = [49, 13, 10, 64, 10, 255, 10] := by
    decide +kernel
  have hother : (callForSession [120]).input.toList = [49, 13, 10, 64, 10, 255, 10, 120] := by
    decide +kernel
  obtain ⟨-, hrun, hstop⟩ := run_session (callForSession []) _ "12:00" hsettings rfl
  have hresult := hrun _ _ _ (hinput ▸ hpieces) hsession
  refine ⟨hsettings, hpieces, hsession, hresult.exitCode, hresult.output.trans ?_,
    (hresult.errorOutput rfl).trans ?_, hstop _ _ _ _ hpieces hsession (by decide) (by decide) ?_
      (callForSession [120]).input ?_⟩
  · decide +kernel
  · decide +kernel
  · exact hinput ▸ List.prefix_refl _
  · exact hother ▸ List.prefix_append _ [120]

end ScriptLexer.CommandLine

/-
# Interactive sessions

Without a script the program reads standard input line by line and reports on each line by itself.
The session ends with the input, with a line that says `exit`, or with a line that is not text.
Errors in a line do not end it.
-/
import ScriptLexer.CommandLine.Help
import ScriptLexer.CommandLine.Report

namespace ScriptLexer.CommandLine

/-! ## Lines -/

/-- The byte that ends a line. -/
def lineFeed : UInt8 := 10

/-- Cuts bytes into lines, each with the line feed that ends it; the last may lack one. -/
def splitLines (bytes : List UInt8) : List (List UInt8) :=
  match _hd : bytes.dropWhile (· != lineFeed) with
  | [] => if bytes.isEmpty then [] else [bytes]
  | b :: rest => (bytes.takeWhile (· != lineFeed) ++ [b]) :: splitLines rest
termination_by bytes.length
decreasing_by
  have h := (List.dropWhile_suffix (l := bytes) (· != lineFeed)).length_le
  rw [_hd, List.length_cons] at h
  omega

/-- A line without the line feeds and carriage returns at its end. -/
def trimLineEnd (line : String) : String :=
  String.ofList (line.toList.reverse.dropWhile fun c => c == '\n' || c == '\r').reverse

/-! ## Sessions -/

/-- One round of a session: what the program does about one line. -/
structure Round where
  /-- What it writes. -/
  chunks : List Chunk
  /-- How the session ends, if it ends with this line. -/
  ending : Option ExitStatus
deriving DecidableEq, Repr

/-- The round for the line that the given bytes make. -/
def Round.ofLine (line : List UInt8) : Round :=
  match String.fromUTF8? line.toByteArray with
  | none => ⟨[.complaint (ReadFailure.notText.reason ++ "\n")], some .unreadable⟩
  | some text =>
    let source := trimLineEnd text
    if source = "exit" then ⟨[], some .success⟩ else ⟨report source, none⟩

/-- The part of a session in which the given lines are read. -/
def converse : List (List UInt8) → Transcript
  | [] => ⟨[.output promptText], .success⟩
  | line :: rest =>
    let r := Round.ofLine line
    match r.ending with
    | some status => ⟨.output promptText :: r.chunks, status⟩
    | none =>
      let t := converse rest
      ⟨.output promptText :: (r.chunks ++ t.chunks), t.status⟩

/-- The session on the given input. -/
def runPrompt (input : ByteArray) : Transcript :=
  let t := converse (splitLines input.toList)
  ⟨.output bannerText :: t.chunks, t.status⟩

end ScriptLexer.CommandLine

/-
# Reports on a text

The report on a text lists its errors on standard error, or its tokens on standard output if there
is no error.  A script is read from a file first, and the end of the run tells how it went.
-/
import ScriptLexer.CommandLine.ReadFailure
import ScriptLexer.CommandLine.Transcript
import ScriptLexer.Reader.Program

namespace ScriptLexer.CommandLine

/-- What is written about a text: the events of the scan, and then all errors or all tokens. -/
def report (source : String) : List Chunk :=
  let scanned := scan source
  let findings :=
    if scanned.hasErrors then scanned.errors.map fun e => Chunk.complaint (e.text ++ "\n")
    else scanned.tokens.map fun t => Chunk.output (t.text ++ "\n")
  (scanEvents source).map Chunk.record ++ findings

/-- The run for a script that cannot be read. -/
def unreadableScript (path : String) (failure : ReadFailure) : Transcript :=
  ⟨[.complaint ("could not read " ++ path ++ ": " ++ failure.reason ++ "\n")], .unreadable⟩

/-- The run for the script at `path`, given what reading the file yields. -/
def runScript (path : String) (contents : Except ReadFailure ByteArray) : Transcript :=
  match contents with
  | .error failure => unreadableScript path failure
  | .ok bytes =>
    match String.fromUTF8? bytes with
    | none => unreadableScript path .notText
    | some source =>
      ⟨.record (.scanningFile path bytes.size) :: report source,
        if (scan source).hasErrors then .invalidData else .success⟩

end ScriptLexer.CommandLine

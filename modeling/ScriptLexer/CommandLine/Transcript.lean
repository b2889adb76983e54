/-
# Transcripts

What a run of the program does is written down as a transcript: the pieces that it writes, in
order, and how it ends.  Output and complaints are written always; a recorded event is written only
if the settings of the log show it.
-/
import ScriptLexer.CommandLine.Arguments

namespace ScriptLexer.CommandLine

/-- How a run ends. -/
inductive ExitStatus
  | success
  /-- The program was called wrongly. -/
  | usage
  /-- The script breaks a lexical rule. -/
  | invalidData
  /-- Input could not be read. -/
  | unreadable
deriving DecidableEq, Repr

/-- The number that the system is told. -/
def ExitStatus.code : ExitStatus → Nat
  | success => 0
  | usage => 64
  | invalidData => 65
  | unreadable => 70

/-- A piece of what the program writes. -/
inductive Chunk
  /-- Text on standard output. -/
  | output (text : String)
  /-- Text on standard error. -/
  | complaint (text : String)
  /-- An event for the log, which goes to standard error. -/
  | record (e : Event)
deriving DecidableEq, Repr

namespace Chunk

/-- What a chunk puts on standard output. -/
def onOutput : Chunk → String
  | output text => text
  | complaint _ => ""
  | record _ => ""

/-- What a chunk puts on standard error at a given time. -/
def onError (log : LogSettings) (time : String) : Chunk → String
  | output _ => ""
  | complaint text => text
  | record e => if log.verbosity.shows e.level then e.line log.style time else ""

end Chunk

/-- A run of the program. -/
structure Transcript where
  /-- What the program writes, in order. -/
  chunks : List Chunk
  /-- How it ends. -/
  status : ExitStatus
deriving DecidableEq, Repr

namespace Transcript

/-- Everything that a run puts on standard output. -/
def output (t : Transcript) : String :=
  String.join (t.chunks.map Chunk.onOutput)

/-- Everything that a run puts on standard error, every log line bearing the same time. -/
def errorOutput (t : Transcript) (log : LogSettings) (time : String) : String :=
  String.join (t.chunks.map (Chunk.onError log time))

end Transcript

end ScriptLexer.CommandLine

/-
# The program

A call of the program with arguments, an environment, standard input and files that can be read or
not determines what it writes and how it ends.
-/
import ScriptLexer.CommandLine.Prompt

namespace ScriptLexer.CommandLine

/-- The run that an interruption makes of a call. -/
def Interruption.transcript (env : Environment) : Interruption → Transcript
  | help => ⟨[.output (helpText env)], .success⟩
  | version => ⟨[.output versionText], .success⟩
  | misuse _ => ⟨[.output usageText], .usage⟩

/-- A call of the program, and what it finds. -/
structure Call where
  /-- The arguments behind the name of the program. -/
  arguments : List String
  /-- The environment variables. -/
  environment : Environment
  /-- Everything that can be read from standard input. -/
  input : ByteArray
  /-- What the system answers when the file at a path is to be read. -/
  fileAt : String → Except ReadFailure ByteArray

namespace Call

/-- The run of a call with given settings. -/
def transcript (call : Call) (settings : Settings) : Transcript :=
  match settings.script with
  | some path => runScript path (call.fileAt path)
  | none => runPrompt call.input

end Call

/-- What can be seen of a run. -/
structure Result where
  /-- The number that the system is told. -/
  exitCode : Nat
  /-- Everything on standard output. -/
  output : String
  /-- Everything on standard error. -/
  errorOutput : String
deriving DecidableEq, Repr

/-- Runs a call, with every log line bearing the given time. -/
def Call.run (call : Call) (time : String) : Result :=
  match settings call.arguments call.environment with
  | .error interruption =>
    let t := interruption.transcript call.environment
    ⟨t.status.code, t.output, ""⟩
  | .ok settings =>
    let t := call.transcript settings
    ⟨t.status.code, t.output, t.errorOutput settings.log time⟩

end ScriptLexer.CommandLine

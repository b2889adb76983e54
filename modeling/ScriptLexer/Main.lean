/-
# The command

Puts the program to work: reads arguments, environment variables, files and standard input, and
writes what the library says as soon as it is known.
-/
import ScriptLexer.CommandLine.Program
import Std.Time.DateTime.Timestamp
import Std.Time.DateTime.PlainDateTime

namespace ScriptLexer.CommandLine

/-- A number in decimal, filled up with zeros on the left. -/
def zeroPadded (width : Nat) (n : Int) : String :=
  let digits := toString n
  String.ofList (List.replicate (width - digits.length) '0') ++ digits

/-- The present time, to the microsecond. -/
def currentTime : IO String := do
  let now ← Std.Time.Timestamp.now
  let t := Std.Time.PlainDateTime.ofWallTime (.ofNanoseconds now.toNanosecondsSinceUnixEpoch)
  let date := zeroPadded 4 t.year ++ "-" ++ zeroPadded 2 t.month.val ++ "-"
    ++ zeroPadded 2 t.day.val
  let clock := zeroPadded 2 t.hour.val ++ ":" ++ zeroPadded 2 t.minute.val ++ ":"
    ++ zeroPadded 2 t.second.val ++ "." ++ zeroPadded 6 (t.nanosecond.val / 1000)
  pure (date ++ "T" ++ clock ++ "Z")

/-- Writes chunks, each log line with the time at which it is written. -/
def writeChunks (log : LogSettings) (chunks : List Chunk) : IO Unit := do
  for chunk in chunks do
    (← IO.getStdout).putStr chunk.onOutput
    (← IO.getStderr).putStr (chunk.onError log (← currentTime))
  (← IO.getStdout).flush

/-- The failure that the system gives a number, with either sign, and words for. -/
def numberedFailure (code : UInt32) (details : String) : ReadFailure :=
  let number := if code < 0x80000000 then code else -code
  if number = 20 then .notAFolder
  else if number = 21 then .isAFolder
  else if number = 36 then .nameTooLong
  else .other (details ++ " (os error " ++ toString number ++ ")")

/-- The reason for which the system refuses a file. -/
def readFailure : IO.Error → ReadFailure
  | .noFileOrDirectory .. => .notFound
  | .inappropriateType _ code details => numberedFailure code details
  | .permissionDenied _ code details => numberedFailure code details
  | .invalidArgument _ code details => numberedFailure code details
  | e => .other (toString e)

/-- The contents of a file. -/
def readScript (path : String) : IO (Except ReadFailure ByteArray) := do
  try
    pure (.ok (← IO.FS.readBinFile path))
  catch e =>
    pure (.error (readFailure e))

/-- The bytes of standard input up to and with the next line feed. -/
partial def readLine (input : IO.FS.Stream) (before : List UInt8) : IO (List UInt8) := do
  let next ← input.read 1
  match next.toList with
  | [] => pure before.reverse
  | b :: _ => if b = lineFeed then pure (b :: before).reverse else readLine input (b :: before)

/-- Carries on an interactive session until it ends. -/
partial def carryOn (log : LogSettings) (input : IO.FS.Stream) : IO ExitStatus := do
  writeChunks log [.output promptText]
  let line ← readLine input []
  if line.isEmpty then pure .success
  else
    let r := Round.ofLine line
    writeChunks log r.chunks
    match r.ending with
    | some status => pure status
    | none => carryOn log input

/-- Carries out a call of the program. -/
def perform (args : List String) (env : Environment) : IO ExitStatus := do
  match settings args env with
  | .error interruption =>
    let t := interruption.transcript env
    writeChunks ⟨.silent, .plain⟩ t.chunks
    pure t.status
  | .ok settings =>
    match settings.script with
    | some path =>
      let t := runScript path (← readScript path)
      writeChunks settings.log t.chunks
      pure t.status
    | none =>
      writeChunks settings.log [.output bannerText]
      carryOn settings.log (← IO.getStdin)

end ScriptLexer.CommandLine

/-- The entry point of the program. -/
def main (args : List String) : IO UInt32 := do
  let env : ScriptLexer.CommandLine.Environment := {
    verbose := ← IO.getEnv "OMIX_VERBOSE"
    noColour := ← IO.getEnv "OMIX_NO_COLOR"
    log := ← IO.getEnv "RUST_LOG" }
  let status ← ScriptLexer.CommandLine.perform args env
  pure (UInt32.ofNat status.code)

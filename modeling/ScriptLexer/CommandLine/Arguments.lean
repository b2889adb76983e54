/-
# Command line arguments

The arguments are read from left to right.  A double hyphen alone makes everything behind it a
script, a word behind a double hyphen is a long option, the letters behind a single hyphen are
short options, and anything else, a single hyphen alone included, is the script.  There may be one
script, and each flag may be given once.

Reading is interrupted by the first mistake and by a request for help or for the version, whichever
is read first.  A flag that is not given takes its value from the environment.
-/
import ScriptLexer.Event.Level
import ScriptLexer.Event.Line

namespace ScriptLexer.CommandLine

/-! ## Options -/

/-- The options of the program. -/
inductive Flag
  | verbose | noColour | help | version
deriving DecidableEq, Repr

namespace Flag

/-- The option that a letter behind a single hyphen stands for. -/
def ofLetter? : Char → Option Flag
  | 'v' => some verbose
  | 'h' => some help
  | 'V' => some version
  | _ => none

/-- The option that a word behind a double hyphen stands for. -/
def ofWord? : String → Option Flag
  | "verbose" => some verbose
  | "no-color" => some noColour
  | "help" => some help
  | "version" => some version
  | _ => none

end Flag

/-- A mistake in how the program is called. -/
inductive UsageError
  /-- No option has this letter or word. -/
  | unknownOption (option : String)
  /-- The option is given for the second time. -/
  | repeatedOption (option : Flag)
  /-- The option is given a value, and takes none. -/
  | unexpectedValue (option : Flag)
  /-- The script is named by the empty string. -/
  | emptyScript
  /-- There is a script already. -/
  | secondScript (script : String)
  /-- The value of an environment variable is neither `true` nor `false`. -/
  | notBoolean (value : String)
deriving DecidableEq, Repr

/-- What keeps the program from scanning. -/
inductive Interruption
  | help
  | version
  | misuse (e : UsageError)
deriving DecidableEq, Repr

/-! ## Reading the arguments -/

/-- What the arguments say, as far as they are read. -/
structure Arguments where
  /-- The script to scan. -/
  script : Option String
  /-- Whether the option for a verbose log is given. -/
  verbose : Bool
  /-- Whether the option for a log without colour is given. -/
  noColour : Bool
deriving DecidableEq, Repr

namespace Arguments

/-- No arguments. -/
def empty : Arguments := ⟨none, false, false⟩

/-- Takes note of an option. -/
def give (a : Arguments) : Flag → Except Interruption Arguments
  | .verbose =>
    if a.verbose then .error (.misuse (.repeatedOption .verbose))
    else .ok { a with verbose := true }
  | .noColour =>
    if a.noColour then .error (.misuse (.repeatedOption .noColour))
    else .ok { a with noColour := true }
  | .help => .error .help
  | .version => .error .version

/-- Takes note of the script. -/
def name (a : Arguments) (script : String) : Except Interruption Arguments :=
  match a.script with
  | some _ => .error (.misuse (.secondScript script))
  | none =>
    if script.isEmpty then .error (.misuse .emptyScript) else .ok { a with script := some script }

/-- Reads the letters behind a single hyphen. -/
def readLetters (a : Arguments) : List Char → Except Interruption Arguments
  | [] => .ok a
  | c :: cs =>
    match Flag.ofLetter? c with
    | some flag =>
      match a.give flag with
      | .ok a' => a'.readLetters cs
      | .error i => .error i
    | none => .error (.misuse (.unknownOption c.toString))

/-- Reads the word behind a double hyphen; an equals sign in it would begin a value. -/
def readWord (a : Arguments) (cs : List Char) : Except Interruption Arguments :=
  let word := String.ofList (cs.takeWhile (· != '='))
  match Flag.ofWord? word with
  | some flag =>
    if cs.contains '=' then .error (.misuse (.unexpectedValue flag)) else a.give flag
  | none => .error (.misuse (.unknownOption word))

/-- Reads arguments none of which is an option. -/
def readScripts (a : Arguments) : List String → Except Interruption Arguments
  | [] => .ok a
  | arg :: args =>
    match a.name arg with
    | .ok a' => a'.readScripts args
    | .error i => .error i

/-- Reads one argument, other than the double hyphen. -/
def readOne (a : Arguments) (arg : String) : Except Interruption Arguments :=
  match arg.toList with
  | '-' :: '-' :: word => a.readWord word
  | '-' :: c :: letters => a.readLetters (c :: letters)
  | _ => a.name arg

/-- Reads arguments from left to right. -/
def read (a : Arguments) : List String → Except Interruption Arguments
  | [] => .ok a
  | arg :: args =>
    if arg = "--" then a.readScripts args
    else
      match a.readOne arg with
      | .ok a' => a'.read args
      | .error i => .error i

end Arguments

/-! ## The environment -/

/-- The environment variables that the program looks at, where they are set. -/
structure Environment where
  /-- Stands in for the option for a verbose log. -/
  verbose : Option String
  /-- Stands in for the option for a log without colour. -/
  noColour : Option String
  /-- How much of the log to show, against what the options say. -/
  log : Option String
deriving DecidableEq, Repr

/-- Whether a flag is on: it is given, or the variable that stands in for it is `true`. -/
def flagValue (given : Bool) (standIn : Option String) : Except UsageError Bool :=
  if given then .ok true
  else
    match standIn with
    | none => .ok false
    | some "true" => .ok true
    | some "false" => .ok false
    | some value => .error (.notBoolean value)

/-! ## Settings -/

/-- How the log is written. -/
structure LogSettings where
  /-- The events that are shown. -/
  verbosity : Verbosity
  /-- How their lines are set. -/
  style : LineStyle
deriving DecidableEq, Repr

/-- Everything that a call of the program decides. -/
structure Settings where
  /-- The script to scan; without one the program prompts for lines. -/
  script : Option String
  /-- How the log is written. -/
  log : LogSettings
deriving DecidableEq, Repr

/-- The settings of the log: warnings and errors only, or with `verbose` everything but the tokens,
unless the environment names another limit. -/
def LogSettings.of (verbose noColour : Bool) (limit : Option String) : LogSettings where
  verbosity := (limit.bind Verbosity.ofWord?).getD (.upTo (if verbose then .debug else .warn))
  style := if noColour then .plain else .coloured

/-- Completes the arguments from the environment. -/
def Arguments.complete (a : Arguments) (env : Environment) : Except UsageError Settings := do
  let verbose ← flagValue a.verbose env.verbose
  let noColour ← flagValue a.noColour env.noColour
  pure ⟨a.script, .of verbose noColour env.log⟩

/-- The settings that the arguments and the environment make, or what interrupts the program. -/
def settings (args : List String) (env : Environment) : Except Interruption Settings :=
  match Arguments.empty.read args with
  | .error i => .error i
  | .ok a => (a.complete env).mapError .misuse

end ScriptLexer.CommandLine

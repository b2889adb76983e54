/-
# Fixed texts of the command line

The texts that the program shows about itself.  The help shows the values that the environment
variables have at the moment.
-/
import ScriptLexer.CommandLine.Arguments
import ScriptLexer.ControlSequence

namespace ScriptLexer.CommandLine

/-- Shown when the program is called wrongly. -/
def usageText : String := "Usage: omix [script]\n"

/-- Shown on request for the version. -/
def versionText : String := "omix 0.1.0\n"

/-! ## Help -/

/-- The name of an option, in bold. -/
def optionName (name : String) : String :=
  LineStyle.coloured.render LineStyle.bold name

/-- The column in which the descriptions of the options begin. -/
def descriptionColumn : Nat := 18

/-- The description of a flag, with the present value of the environment variable that stands in
for it.  Every line of the value but the first begins in the column of the descriptions. -/
def flagDescription (purpose standIn : String) (value : Option String) : String :=
  let text := purpose ++ " [env: " ++ standIn ++ "=" ++ value.getD "" ++ "]"
  String.ofList (text.toList.flatMap fun c =>
    if c = '\n' then '\n' :: List.replicate descriptionColumn ' ' else [c])

/-- The help for a terminal. -/
def styledHelpText (env : Environment) : String :=
  "Scans Omix source code and prints the resulting tokens\n"
    ++ "\n"
    ++ "Usage: omix [OPTIONS] [SCRIPT]\n"
    ++ "\n"
    ++ "Arguments:\n"
    ++ "  [SCRIPT]  Script to scan; starts an interactive prompt when omitted\n"
    ++ "\n"
    ++ "Options:\n"
    ++ "  " ++ optionName "-v" ++ ", " ++ optionName "--verbose" ++ "   "
    ++ flagDescription "Enable debug logging" "OMIX_VERBOSE" env.verbose ++ "\n"
    ++ "      " ++ optionName "--no-color" ++ "  "
    ++ flagDescription "Disable color in log output" "OMIX_NO_COLOR" env.noColour ++ "\n"
    ++ "  " ++ optionName "-h" ++ ", " ++ optionName "--help" ++ "      Print help\n"
    ++ "  " ++ optionName "-V" ++ ", " ++ optionName "--version" ++ "   Print version\n"

/-- Shown on request for help.  Control sequences are taken out, those that the values of the
environment variables hold as well as those of the style. -/
def helpText (env : Environment) : String :=
  withoutControls (styledHelpText env)

/-! ## Interactive sessions -/

/-- Shown when an interactive session begins. -/
def bannerText : String := "Omix Interpreter\nType 'exit' to quit\n"

/-- Shown before each line of an interactive session is read. -/
def promptText : String := "> "

end ScriptLexer.CommandLine

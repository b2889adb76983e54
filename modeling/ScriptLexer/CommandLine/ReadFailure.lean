/-
# Files that cannot be read

Whether a script can be read is up to the system.  If it cannot, the system says why, for the common
reasons in words that are always the same.
-/

namespace ScriptLexer.CommandLine

/-- Why a file cannot be read as text. -/
inductive ReadFailure
  | notFound
  | notAFolder
  | isAFolder
  | nameTooLong
  | notText
  /-- For a reason that the system states in words of its own. -/
  | other (reason : String)
deriving DecidableEq, Repr

/-- The words in which a failure is reported. -/
def ReadFailure.reason : ReadFailure → String
  | notFound => "No such file or directory (os error 2)"
  | notAFolder => "Not a directory (os error 20)"
  | isAFolder => "Is a directory (os error 21)"
  | nameTooLong => "File name too long (os error 36)"
  | notText => "stream did not contain valid UTF-8"
  | other reason => reason

end ScriptLexer.CommandLine

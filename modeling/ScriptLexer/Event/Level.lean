/-
# Levels of events

Events differ in weight.  Whoever follows a scan chooses how much to see: everything at least as
weighty as a level of choice, or nothing at all.
-/

namespace ScriptLexer

/-- The weight of an event, the weightiest first. -/
inductive Level
  | error | warn | info | debug | trace
deriving DecidableEq, Repr

namespace Level

/-- The position in the order from the weightiest level to the lightest. -/
def depth : Level → Nat
  | error => 0
  | warn => 1
  | info => 2
  | debug => 3
  | trace => 4

/-- The name under which a level is reported. -/
def name : Level → String
  | error => "ERROR"
  | warn => "WARN"
  | info => "INFO"
  | debug => "DEBUG"
  | trace => "TRACE"

/-- The level that is chosen by a name in lower case. -/
def ofName? : String → Option Level
  | "error" => some error
  | "warn" => some warn
  | "info" => some info
  | "debug" => some debug
  | "trace" => some trace
  | _ => none

end Level

/-- How much of the events is to be seen. -/
inductive Verbosity
  | silent
  | upTo (level : Level)
deriving DecidableEq, Repr

namespace Verbosity

/-- Whether events of a level are to be seen. -/
def shows : Verbosity → Level → Bool
  | silent, _ => false
  | upTo limit, level => level.depth ≤ limit.depth

/-- The choice that is made by a word: `off`, or the name of a level. -/
def ofWord? (word : String) : Option Verbosity :=
  if word = "off" then some silent else (Level.ofName? word).map upTo

end Verbosity

end ScriptLexer

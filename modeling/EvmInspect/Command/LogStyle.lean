import EvmInspect.Text.Numeral

/-!
# How the program logs

How much is logged and whether in color are choices of the command line. Their names are
read without regard to case; only ASCII letters have a case that matters, since no other
letter is a form of one in a name.
-/

namespace EvmInspect.Command

inductive LogLevel where
  | error
  | warn
  | info
  | debug
  | trace
deriving DecidableEq

namespace LogLevel

def name : LogLevel → String
  | error => "error"
  | warn => "warn"
  | info => "info"
  | debug => "debug"
  | trace => "trace"

/-- The levels, from the one that logs least to the one that logs most. -/
def all : List LogLevel := [error, warn, info, debug, trace]

/-- Reads a level by its name, or by its number counted from 1. -/
def ofText? (text : String) : Option LogLevel :=
  match Numeral.readUInt64 10 text.toList with
  | .ok n => if n = 0 then none else all[n.toNat - 1]?
  | .error _ => all.find? fun level => level.name == text.toLower

end LogLevel

/-- When the log is in color. -/
inductive LogColor where
  /-- When it goes to a terminal. -/
  | auto
  | always
  | never
deriving DecidableEq

namespace LogColor

def name : LogColor → String
  | auto => "auto"
  | always => "always"
  | never => "never"

def all : List LogColor := [auto, always, never]

def ofText? (text : String) : Option LogColor :=
  all.find? fun color => color.name == text.toLower

/-- What is said of a text that names no choice. -/
def message (text : String) : String :=
  s!"Invalid log color '{text}'. Expected: auto, always, or never"

end LogColor

end EvmInspect.Command

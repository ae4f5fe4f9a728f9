import LinesAndLists.CommandLine.Stop

/-! The parser of command lines is not part of the programs. A program declares its
parameters in a `Signature` and runs with whatever `Parser` it is handed; it gets back the
values, read by the function that its signature names, or the reason to stop. -/
namespace LinesAndLists

structure Execution where
  exit : Nat
  stdout : String
  stderr : String
  deriving DecidableEq, Repr

namespace CommandLine

/-- Defaults are texts, and are read as values on the command line are. -/
structure Parameter where
  label : String
  defaults : List String
  deriving DecidableEq, Repr

/-- The parameters that stand outside options: several with one value each, or one with
any number of values. -/
inductive Places where
  | each (parameters : List Parameter)
  | many (parameter : Parameter)
  deriving DecidableEq, Repr

def Places.next? : Places → Nat → Option Parameter
  | .each parameters, used => parameters[used]?
  | .many parameter, _ => some parameter

/-- The parameters that get nothing of `used` values. -/
def Places.missing : Places → Nat → List Parameter
  | .each parameters, used => parameters.drop used
  | .many parameter, used => if used = 0 then [parameter] else []

structure Signature (α : Type) where
  places : Places
  options : List (String × Parameter)
  -- Whether a value may begin with a hyphen as it likes, and not only as a negative
  -- number does.
  takesHyphens : Bool
  read : String → Except Reason α

/-- What a command line gives: values outside options in order, and values of options by
the names of these. -/
structure Matches (α : Type) where
  values : List α := []
  options : List (String × α) := []
  deriving DecidableEq, Repr

variable {α : Type}

def Matches.add (m : Matches α) (v : α) : Matches α := { m with values := m.values ++ [v] }

def Matches.set (m : Matches α) (name : String) (v : α) : Matches α :=
  { m with options := m.options ++ [(name, v)] }

def Signature.absent (g : Signature α) (m : Matches α) : List (String × Parameter) :=
  g.options.filter fun option => (m.options.lookup option.1).isNone

structure Usage where
  help : String
  version : String
  deriving DecidableEq, Repr

structure Parser where
  -- What the arguments themselves give.
  scan {α : Type} (g : Signature α) (texts : List String) : Except Stop (Matches α)
  -- Adds the defaults of the parameters that were not given.
  complete {α : Type} (g : Signature α) (m : Matches α) : Except Stop (Matches α)
  readInteger : String → Except Reason Int32
  report (usage : Usage) (reason : Stop) : Execution

def Parser.parse (parser : Parser) (g : Signature α) (texts : List String) :
    Except Stop (Matches α) := do
  let m ← parser.scan g texts
  parser.complete g m

def Parameter.require (parameter : Parameter) : Option α → Except Stop α
  | some v => .ok v
  | none => .error (.missingValue parameter.label)

end CommandLine
end LinesAndLists

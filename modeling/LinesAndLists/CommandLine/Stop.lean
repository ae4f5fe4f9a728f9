import LinesAndLists.Grid.Point
import LinesAndLists.Terminal.Style

/-! Why a command line starts no program: the user asked for something else, or an
argument is at fault. -/
namespace LinesAndLists.CommandLine

inductive Reason where
  | point (cause : Point.ReadError)
  | numeral (fault : Numeral.Fault)
  | outside (n : Int) (range : Numeral.Range)
  deriving DecidableEq, Repr

def Reason.message : Reason → String
  | .point cause => cause.message
  | .numeral fault => fault.message
  | .outside n range =>
    Numeral.text n ++ " is not in " ++ Numeral.text range.lo ++ "..=" ++ Numeral.text range.hi

def readPoint (text : String) : Except Reason Point :=
  (Point.read text).mapError .point

/-- Parameters are named as the help text names them. -/
inductive Stop where
  | help
  | version
  | invalidValue (parameter text : String) (reason : Reason)
  | missingValue (parameter : String)
  | repeated (parameter : String)
  | unexpected (text : String)
  | unexpectedValue (option text : String)
  deriving DecidableEq, Repr

open Terminal.Style in
def Stop.fault? : Stop → Option String
  | .help => none
  | .version => none
  -- Names and arguments are in style, but the reason is not.
  | .invalidValue parameter text reason =>
    some ("invalid value '" ++ invalid.paint text ++ "' for '" ++ literal.paint parameter ++ "': " ++
      reason.message)
  | .missingValue parameter =>
    some ("a value is required for '" ++ literal.paint parameter ++ "' but none was supplied")
  | .repeated parameter =>
    some ("the argument '" ++ invalid.paint parameter ++ "' cannot be used multiple times")
  | .unexpected text => some ("unexpected argument '" ++ invalid.paint text ++ "' found")
  | .unexpectedValue option text =>
    some ("unexpected value '" ++ invalid.paint text ++ "' for '" ++ literal.paint option ++
      "' found; no more were expected")

open Terminal.Style in
def Stop.complaint? (reason : Stop) : Option String :=
  reason.fault?.map fun fault =>
    error.paint "error:" ++ " " ++ fault ++ "\n\nFor more information, try '" ++
      literal.paint "--help" ++ "'.\n"

end LinesAndLists.CommandLine

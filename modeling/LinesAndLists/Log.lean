/-! Log records. Nothing here decides where a record goes: an operation that logs has
a function beside it that gives its records, in order. -/
namespace LinesAndLists

inductive Level where
  | trace
  | debug
  deriving DecidableEq, Repr

def Level.name : Level → String
  | .trace => "TRACE"
  | .debug => "DEBUG"

structure Record where
  level : Level
  message : String
  deriving DecidableEq, Repr

end LinesAndLists

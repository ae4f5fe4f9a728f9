/-! Words in style, by the sequences a terminal understands. -/
namespace LinesAndLists.Terminal

inductive Style where
  | error
  | invalid
  | literal
  deriving DecidableEq, Repr

def Style.code : Style → String
  | .error => "\x1b[1m\x1b[31m"
  | .invalid => "\x1b[33m"
  | .literal => "\x1b[1m"

def Style.paint (style : Style) (text : String) : String := style.code ++ text ++ "\x1b[0m"

end LinesAndLists.Terminal

import LinesAndLists.CommandLine.Parser
import LinesAndLists.Grid.Line
import LinesAndLists.Output
import LinesAndLists.Text.Layout

/-! The program that prints the grid points of a segment, one a line. -/
namespace LinesAndLists.LineProgram

open CommandLine

structure Arguments where
  start : Point
  finish : Point
  deriving DecidableEq, Repr

def startParameter : Parameter := ⟨"[FROM]", ["0,1"]⟩

def finishParameter : Parameter := ⟨"[TO]", ["6,4"]⟩

/-- Two points, which may begin with a minus sign. -/
def signature : Signature Point where
  places := .each [startParameter, finishParameter]
  options := []
  takesHyphens := true
  read := readPoint

def arguments (parser : Parser) (texts : List String) : Except Stop Arguments := do
  let given ← parser.parse signature texts
  let start ← startParameter.require given.values[0]?
  let finish ← finishParameter.require given.values[1]?
  return { start, finish }

variable {m : Type → Type} [Monad m]

/-- Takes points from the front while there are any, `limit` at most. -/
@[specialize] def writePoints (io : Channel m) : Nat → Line → m Unit
  | 0, _ => pure ()
  | limit + 1, l =>
    match l.pop .front with
    | none => pure ()
    | some (p, l) => do
      io.writeAll .writePoint (p.pieces ++ ["\n"])
      writePoints io limit l

@[specialize] def run (io : Channel m) (a : Arguments) : m Unit := do
  let l := Line.between a.start a.finish
  io.log (Line.creation a.start a.finish)
  io.log ⟨.debug, "rasterizing " ++ Numeral.text l.size ++ " points"⟩
  writePoints io l.size l
  io.flush .flushOutput

def usage : Usage where
  version := "bresenham 0.1.0\n"
  help := Text.lines [
    "Prints the grid points of a line segment, one `x, y` per line",
    "",
    "Usage: line [FROM] [TO]",
    "",
    "Arguments:",
    "  [FROM]  Start point as `x,y` [default: 0,1]",
    "  [TO]    End point as `x,y` [default: 6,4]",
    "",
    "Options:",
    "  -h, --help     Print help",
    "  -V, --version  Print version"]

end LinesAndLists.LineProgram

import LinesAndLists.Chain.Rendering
import LinesAndLists.CommandLine.Parser
import LinesAndLists.Output
import LinesAndLists.Text.Layout

/-! The program that builds a chain by head insertion and reports on it. -/
namespace LinesAndLists.ListProgram

open CommandLine

structure Arguments where
  values : List Int32
  target : Int32
  deriving DecidableEq, Repr

def numeral (v : Int32) : String := Numeral.text v.toInt

def valuesParameter : Parameter := ⟨"[VALUES]...", [3, 5, 4, 2].map numeral⟩

def findParameter : Parameter := ⟨"--find <FIND>", [numeral 5]⟩

/-- Any number of integers, and one more as an option. -/
def signature (parser : Parser) : Signature Int32 where
  places := .many valuesParameter
  options := [("find", findParameter)]
  takesHyphens := false
  read := parser.readInteger

def arguments (parser : Parser) (texts : List String) : Except Stop Arguments := do
  let given ← parser.parse (signature parser) texts
  let target ← findParameter.require (given.options.lookup "find")
  return { values := given.values, target }

variable {m : Type → Type} [Monad m]

/-- The chain that the values give, each put in front of those before it. -/
def build (io : Channel m) : List Int32 → Chain → m Chain
  | [], c => pure c
  | v :: vs, c => do
    io.log (Chain.construction v)
    build io vs (.link v c)

def run (io : Channel m) (a : Arguments) : m Unit := do
  let c ← build io a.values .empty
  io.log ⟨.debug, "built " ++ c.bracketed⟩
  io.writeAll .writeLength ["Length: ", Numeral.text c.length, "\n"]
  c.print (io.write .printList)
  io.writeAll .writeIndex
    ["idx ", Numeral.text a.target.toInt, ": ", Numeral.text (c.indexOf a.target), "\n"]

def usage : Usage where
  version := "slist 0.1.0\n"
  help := Text.lines [
    "Builds a list by head insertion and reports its length, contents and the index of one value",
    "",
    "Usage: slist [OPTIONS] [VALUES]...",
    "",
    "Arguments:",
    "  [VALUES]...  Values to insert, each one in front of the previous [default: 3 5 4 2]",
    "",
    "Options:",
    "      --find <FIND>  Value to look up [default: 5]",
    "  -h, --help         Print help",
    "  -V, --version      Print version"]

end LinesAndLists.ListProgram

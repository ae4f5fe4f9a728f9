import LinesAndLists.CommandLine.Recognition
import LinesAndLists.Terminal.Bare

/-! The parser that the programs run with. -/
namespace LinesAndLists.CommandLine

/-- An integer is read as a 64-bit word first. So a numeral of moderate size is refused
with its value, and only a longer one as a numeral. -/
def readInteger (text : String) : Except Reason Int32 :=
  match Numeral.read .word64 text.toList with
  | .error fault => .error (.numeral fault)
  | .ok n =>
    if Numeral.Range.word32.Holds n then .ok (Int32.ofInt n) else .error (.outside n .word32)

def Signature.readDefaults {α : Type} (g : Signature α) (parameter : Parameter) :
    Except Stop (List α) :=
  parameter.defaults.mapM (g.readFor parameter)

def Signature.readOptionDefaults {α : Type} (g : Signature α) (option : String × Parameter) :
    Except Stop (List (String × α)) :=
  (g.readDefaults option.2).map fun values => values.map (option.1, ·)

def Signature.complete {α : Type} (g : Signature α) (m : Matches α) : Except Stop (Matches α) := do
  let values ← (g.places.missing m.values.length).mapM g.readDefaults
  let options ← (g.absent m).mapM g.readOptionDefaults
  return ⟨m.values ++ values.flatten, m.options ++ options.flatten⟩

/-- A stop is a success only if the user asked for it. The complaint comes without the
control sequences in it, its own and those of the arguments. -/
def Stop.execution (usage : Usage) (reason : Stop) : Execution :=
  match reason.complaint? with
  | some complaint => ⟨2, "", Terminal.bare complaint⟩
  | none => ⟨0, if reason = .help then usage.help else usage.version, ""⟩

def Parser.standard : Parser where
  scan g texts := g.settle {} (g.recognise 0 texts)
  complete := Signature.complete
  readInteger := CommandLine.readInteger
  report := Stop.execution

end LinesAndLists.CommandLine

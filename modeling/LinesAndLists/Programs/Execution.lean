import LinesAndLists.CommandLine.Standard
import LinesAndLists.Programs.LineProgram
import LinesAndLists.Programs.ListProgram

/-! Running a program from its command line: what it prints where, and its exit code. -/
namespace LinesAndLists

open CommandLine

inductive Program where
  | line
  | list
  deriving DecidableEq, Repr

inductive Job where
  | line (a : LineProgram.Arguments)
  | list (a : ListProgram.Arguments)
  deriving DecidableEq, Repr

@[specialize] def Job.run {m : Type → Type} [Monad m] (io : Channel m) : Job → m Unit
  | .line a => LineProgram.run io a
  | .list a => ListProgram.run io a

def failureReport (activity cause : String) : String :=
  "Error: " ++ activity ++ "\n\nCaused by:\n    " ++ cause ++ "\n"

namespace Program

def named? : String → Option Program
  | "line" => some .line
  | "slist" => some .list
  | _ => none

def usage : Program → Usage
  | .line => LineProgram.usage
  | .list => ListProgram.usage

def startWith (parser : Parser) (texts : List String) : Program → Except Stop Job
  | .line => (LineProgram.arguments parser texts).map .line
  | .list => (ListProgram.arguments parser texts).map .list

/-- The program run against an output without limits. -/
def executeWith (parser : Parser) (texts : List String) (program : Program) : Execution :=
  match program.startWith parser texts with
  | .error reason => parser.report program.usage reason
  | .ok job =>
    match job.run Session.channel {} with
    | .ok _ s => ⟨0, s.sink.text, ""⟩
    | .error failure s =>
      ⟨1, s.sink.text, failureReport failure.activity.failure failure.cause.message⟩

def start (program : Program) (texts : List String) : Except Stop Job :=
  program.startWith .standard texts

def execute (program : Program) (texts : List String) : Execution :=
  program.executeWith .standard texts

variable {parser : Parser} {program : Program} {texts : List String} {job : Job} {s : Session}
  {reason : Stop}

theorem execute_of_run (started : program.startWith parser texts = .ok job)
    (ran : job.run Session.channel {} = .ok () s) :
    program.executeWith parser texts = ⟨0, s.sink.text, ""⟩ := by
  simp only [executeWith, started, ran]

theorem execute_of_stop (stopped : program.startWith parser texts = .error reason) :
    program.executeWith parser texts = parser.report program.usage reason := by
  simp only [executeWith, stopped]

end Program
end LinesAndLists

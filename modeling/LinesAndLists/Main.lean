import LinesAndLists.Programs.Execution

/-! The command line: its first argument names the program, the others are the
program's own. Points are printed as they are found, so a long line needs no memory. -/
namespace LinesAndLists

open CommandLine

def during (activity : Activity) (action : IO Unit) : IO Unit := do
  try action
  catch cause => throw (IO.userError (failureReport activity.failure (toString cause)))

def standardOutput (out : IO.FS.Stream) : Channel IO where
  write activity text := during activity (out.putStr text)
  flush activity := during activity out.flush
  log _ := pure ()

def report (e : Execution) : IO UInt32 := do
  IO.print e.stdout
  IO.eprint e.stderr
  return UInt32.ofNat e.exit

/-- Only a terminal is told of a fault in style. -/
def reportStop (program : Program) (reason : Stop) : IO UInt32 := do
  let e := Parser.standard.report program.usage reason
  match reason.complaint? with
  | some complaint =>
    report (if ← (← IO.getStderr).isTty then { e with stderr := complaint } else e)
  | none => report e

def launch (program : Program) (texts : List String) : IO UInt32 := do
  match program.start texts with
  | .error reason => reportStop program reason
  | .ok job =>
    try
      job.run (standardOutput (← IO.getStdout))
      return 0
    catch cause =>
      IO.eprint (toString cause)
      return 1

end LinesAndLists

open LinesAndLists in
def main : List String → IO UInt32
  | [] => report ⟨2, "", "usage: (line | slist) [ARGUMENTS]...\n"⟩
  | name :: texts =>
    match Program.named? name with
    | some program => launch program texts
    | none => report ⟨2, "", "unknown program: " ++ name ++ "\n"⟩

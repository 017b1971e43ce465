import SecurityDescriptor.CommandLine.Session

/-!
# The command

Reads the arguments and the input from the system and performs the acts of a run on it; all
else is done by the definitions that a session is made of.
-/

namespace SecurityDescriptor.CommandLine

/-- The input of a run, from a file or from standard input. -/
def readInput (path : String) : IO ByteArray := do
  if path = "-" then (← IO.getStdin).readBinToEnd else IO.FS.readBinFile path

/-- Performs an act on the system.  Of its notices those are shown that reach a threshold. -/
def Act.execute (threshold : Level) : Act → IO Unit
  | log notices => IO.eprint (Notice.shown threshold notices)
  | print text => IO.print text
  | save path text => IO.FS.writeFile path text
  | saveNameless => throw (IO.userError OpenError.noPath.message)

/-- Runs the command on record lines. -/
def runLines (s : Settings) (lines : List String) : IO UInt32 := do
  let script := s.script lines
  script.acts.forM (Act.execute (LogLevels.initial.configure s.verbosity).threshold)
  return UInt32.ofNat script.exitCode

end SecurityDescriptor.CommandLine

open SecurityDescriptor CommandLine in
/-- The command's entry. -/
def main (args : List String) : IO UInt32 := do
  match Request.ofArguments args with
  | .help =>
    IO.print help
    return 0
  | .error e =>
    IO.eprint e.report
    return 2
  | .run s =>
    match readLines (← readInput s.input) with
    | none => throw (IO.userError "the input is not UTF-8")
    | some lines => runLines s lines

import SecurityDescriptor.CommandLine.Arguments
import SecurityDescriptor.CommandLine.FileSystem
import SecurityDescriptor.CommandLine.Usage
import SecurityDescriptor.Dump

/-!
# Sessions

A session is a sequence of calls of the command that share a file system and a log.  The
first call whose arguments are understood sets the log's level for good; a call with two
or more `-v` sets a level of the package's own, which comes before it, also for good.

What a run does with its record lines is a script (`Settings.script`), a list of acts.  They
are performed one after the other, on any file system, until one fails.
-/

namespace SecurityDescriptor.CommandLine

open FileSystem

/-! ## The log's level -/

/-- The levels that earlier calls have set. -/
structure LogLevels where
  /-- The level of the first call. -/
  root : Option Level
  /-- The level of the package. -/
  package : Option Level
deriving DecidableEq, Repr

namespace LogLevels

/-- No call was made yet. -/
def initial : LogLevels := ⟨none, none⟩

/-- The level that a number of `-v` asks for. -/
def ofVerbosity : Nat → Level
  | 0 => .warning
  | 1 => .info
  | _ => .debug

/-- The levels after a call whose arguments are understood. -/
def configure (l : LogLevels) (verbosity : Nat) : LogLevels where
  root := some (l.root.getD (ofVerbosity verbosity))
  package := if 2 ≤ verbosity then some .debug else l.package

/-- The least level that is shown. -/
def threshold (l : LogLevels) : Level := l.package.getD (l.root.getD .warning)

end LogLevels

/-! ## Reports -/

/-- A progress display is shown if the text does not go to the standard output. -/
def Settings.display (s : Settings) : Bool := s.target != .stdout

/-- What a run makes of its record lines, wherever the text goes. -/
structure Report where
  text : String
  /-- The notices of the lines. -/
  records : List Notice
  /-- The notice behind them, if there is one. -/
  summary : List Notice
  exitCode : Nat

namespace Report

/-- Dumps the record lines. -/
def ofLines (s : Settings) (lines : List String) : Report :=
  let dump := Dump.ofLines s.format s.mode s.display lines
  if dump.failures = 0 then ⟨dump.text, dump.log, [], 0⟩
  else ⟨dump.text, dump.log, [.recordsFailed dump.failures lines.length], 1⟩

/-- The notices, apart from the first. -/
def log (r : Report) : List Notice := r.records ++ r.summary

/-- What is printed when the text went to a file. -/
def writtenTo (path : String) : String := "Descriptor dump was written to " ++ path ++ "\n"

end Report

/-! ## Scripts -/

/-- One thing that a run does. -/
inductive Act where
  | log (notices : List Notice)
  | print (text : String)
  /-- Opens a file and writes all of a text to it. -/
  | save (path text : String)
  /-- Opens a file that has no name. -/
  | saveNameless

/-- What a run does, and its exit code if nothing fails. -/
structure Script where
  acts : List Act
  exitCode : Nat

/-- What a run does with its record lines.  The target is opened after they were read, so that it
may be the input. -/
def Settings.script (s : Settings) (lines : List String) : Script :=
  let report := Report.ofLines s lines
  let acts :=
    match s.target with
    | .stdout => [.print report.text, .log report.records]
    | .nameless => [.saveNameless]
    | .file path =>
      [.save path report.text, .log report.records, .print (Report.writtenTo path)]
  ⟨.log [.recordsFound lines.length] :: acts ++ [.log report.summary], report.exitCode⟩

/-- What acts have an effect on. -/
structure Surroundings (σ : Type) where
  /-- What was printed. -/
  stdout : String
  /-- The notices that were logged, shown or not. -/
  log : List Notice
  directory : σ

section Effects

variable {σ ι : Type} [FileSystem σ ι]

/-- The surroundings after an act, unless it fails. -/
def Act.perform (w : Surroundings σ) : Act → Except OpenError (Surroundings σ)
  | log notices => .ok { w with log := w.log ++ notices }
  | print text => .ok { w with stdout := w.stdout ++ text }
  | save path text =>
    match locate w.directory .writing path with
    | .error e => .error e
    | .ok f => .ok { w with directory := write w.directory f text.toUTF8 }
  | saveNameless => .error .noPath

/-- Performs acts in order.  One that fails is the last, and what was done before it stays. -/
def performAll (w : Surroundings σ) : List Act → Option OpenError × Surroundings σ
  | [] => (none, w)
  | act :: acts =>
    match act.perform w with
    | .error e => (some e, w)
    | .ok w => performAll w acts

end Effects

/-! ## Calls -/

/-- Why a call ends without an exit code. -/
inductive Failure where
  | cannotOpen (e : OpenError)
  /-- The input is not UTF-8. -/
  | notText
deriving DecidableEq, Repr

/-- How a call ended. -/
structure Call (σ : Type) where
  exit : Except Failure Nat
  stdout : String
  /-- The notices that are shown and what the argument parser says, and no more: what a progress
  display draws is left out. -/
  stderr : String
  directory : σ
  levels : LogLevels

variable {σ ι : Type} [FileSystem σ ι]

/-- The content of a run's input.  The standard input is taken to be text in the form that files
have, UTF-8 with any of the three line ends. -/
def Settings.content (s : Settings) (dir : σ) (stdin : ByteArray) : Except OpenError ByteArray :=
  if s.input = "-" then .ok stdin else readPath dir s.input

/-- How a script ends. -/
def Script.exit (script : Script) : Option OpenError → Except Failure Nat
  | none => .ok script.exitCode
  | some e => .error (.cannotOpen e)

/-- Runs the command on record lines. -/
def Settings.runLines (s : Settings) (dir : σ) (levels : LogLevels) (lines : List String) :
    Call σ :=
  let script := s.script lines
  let (error?, w) := performAll ⟨"", [], dir⟩ script.acts
  ⟨script.exit error?, w.stdout, Notice.shown levels.threshold w.log, w.directory, levels⟩

/-- Runs the command. -/
def Settings.run (s : Settings) (dir : σ) (stdin : ByteArray) (levels : LogLevels) : Call σ :=
  let levels := levels.configure s.verbosity
  match s.content dir stdin with
  | .error e => ⟨.error (.cannotOpen e), "", "", dir, levels⟩
  | .ok content =>
    match readLines content with
    | none => ⟨.error .notText, "", "", dir, levels⟩
    | some lines => s.runLines dir levels lines

/-- Calls the command. -/
def call (dir : σ) (levels : LogLevels) (args : List String) (stdin : ByteArray) : Call σ :=
  match Request.ofArguments args with
  | .help => ⟨.ok 0, help, "", dir, levels⟩
  | .error e => ⟨.ok 2, "", e.report, dir, levels⟩
  | .run s => s.run dir stdin levels

/-- Calls the command several times.  Each call has arguments and a standard input. -/
def session (dir : σ) (levels : LogLevels) : List (List String × ByteArray) → List (Call σ)
  | [] => []
  | (args, stdin) :: calls =>
    let c := call dir levels args stdin
    c :: session c.directory c.levels calls

end SecurityDescriptor.CommandLine

import SecurityDescriptor.Proofs.LeadingOptions

/-!
# Sessions

Calls of one session share a file system and the levels of the log.  A call gives what it would
give as the first of all on the same files: the levels decide only which of its notices are
shown.

    s.run dir stdin levels =
      { { s with verbosity := v }.run dir stdin levels' with
        stderr := Notice.shown (levels.configure s.verbosity).threshold (s.notices dir stdin)
        levels := levels.configure s.verbosity }                             (Settings.run_eq)

The levels are set by the verbosities of the calls whose arguments are understood: the first of
these sets the root's level, and any of two or more sets the package's.  This is kept by every
call (`LogLevels.SetBy.configure`), so it holds throughout a session (`setBy_session`), and the
least level that is shown, `levelShown`, never rises (`rank_levelShown_append`).
-/

namespace SecurityDescriptor.CommandLine

open FileSystem

variable {σ ι : Type} [FileSystem σ ι]

/-! ## Runs -/

namespace Settings

section Targets

variable {s : Settings} (dir : σ) (levels : LogLevels) (lines : List String)

/-! The acts of a run, performed. -/

end Targets

variable (s : Settings) (dir : σ) (stdin : ByteArray) (levels : LogLevels)

/-- The target can be opened. -/
def opens : Bool :=
  match s.target with
  | .stdout => true
  | .nameless => false
  | .file path => (locate dir .writing path).isOk

/-- The notices of a run on record lines, shown or not. -/
def lineNotices (lines : List String) : List Notice :=
  .recordsFound lines.length :: bif s.opens dir then (Report.ofLines s lines).log else []

/-- The notices of a run, shown or not.  There are none if the input cannot be read. -/
def notices : List Notice :=
  match s.content dir stdin with
  | .error _ => []
  | .ok content =>
    match readLines content with
    | none => []
    | some lines => s.lineNotices dir lines

end Settings

/-! ## Calls -/

namespace Request

/-- The verbosity of a run. -/
def verbosity? : Request → Option Nat
  | .run s => some s.verbosity
  | _ => none

/-- The notices of a call, shown or not. -/
def notices (dir : σ) (stdin : ByteArray) : Request → List Notice
  | .run s => s.notices dir stdin
  | _ => []

/-- The levels after a call. -/
def configure (levels : LogLevels) (r : Request) : LogLevels :=
  r.verbosity?.toList.foldl .configure levels

end Request

section Calls

variable (dir : σ) (stdin : ByteArray) (levels : LogLevels) (args : List String)

end Calls

/-! ## Levels -/

/-- These verbosities set the levels. -/
structure LogLevels.SetBy (levels : LogLevels) (vs : List Nat) : Prop where
  root_eq : levels.root = vs.head?.map ofVerbosity
  package_eq : levels.package = if vs.any (2 ≤ ·) then some .debug else none

namespace LogLevels

variable {levels : LogLevels} {vs : List Nat}

/-- One run more. -/
theorem SetBy.configure (h : levels.SetBy vs) (v : Nat) :
    (levels.configure v).SetBy (vs ++ [v]) where
  root_eq := by
    rw [LogLevels.configure, h.root_eq]
    cases vs <;> rfl
  package_eq := by
    rw [LogLevels.configure, h.package_eq]
    by_cases hv : 2 ≤ v <;> simp [hv]

end LogLevels

end SecurityDescriptor.CommandLine

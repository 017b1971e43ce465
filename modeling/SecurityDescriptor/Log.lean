import SecurityDescriptor.Error
import SecurityDescriptor.Input
import SecurityDescriptor.Trace

/-!
# Log notices

What a run of the program reports, each notice with its level.  A log has a threshold:
the notices below it are not shown.
-/

namespace SecurityDescriptor

/-- The name under which notices are logged. -/
def loggerName : String := "adsecdesc"

/-- The version of the program. -/
def version : String := "0.1.0"

/-- How urgent a notice is. -/
inductive Level where
  | debug
  | info
  | warning
  | error
deriving DecidableEq, Repr

namespace Level

/-- The place of a level in the order. -/
def rank : Level → Nat
  | debug => 0
  | info => 1
  | warning => 2
  | error => 3

/-- The name of a level. -/
def name : Level → String
  | debug => "DEBUG"
  | info => "INFO"
  | warning => "WARNING"
  | error => "ERROR"

end Level

/-- Why a line gives no descriptor. -/
inductive RecordError where
  | line (e : LineError)
  | decode (e : DecodeError)
deriving DecidableEq

/-- The text of an error. -/
def RecordError.message : RecordError → String
  | line e => e.message
  | decode e => e.message

/-- An entry of the log. -/
inductive Notice where
  /-- An event of a decode. -/
  | event (e : Event)
  /-- The number of records found in the input. -/
  | recordsFound (count : Nat)
  /-- A record that gives no descriptor. -/
  | recordFailed (index : Nat) (reason : RecordError)
  /-- The number of records that gave none, at the end of a run. -/
  | recordsFailed (failed total : Nat)
deriving DecidableEq

namespace Notice

/-- The level of a notice. -/
def level : Notice → Level
  | event _ => .debug
  | recordsFound _ => .info
  | recordFailed _ _ => .error
  | recordsFailed _ _ => .warning

/-- The text of a notice. -/
def message : Notice → String
  | event e => e.message
  | recordsFound n => "Decoding " ++ toString n ++ " records"
  | recordFailed i reason =>
    "Record " ++ toString i ++ " failed to decode! Reason: " ++ reason.message
  | recordsFailed failed total =>
    toString failed ++ " out of " ++ toString total ++ " records failed to decode"

/-- A notice with its level. -/
def entry (n : Notice) : String := n.level.name ++ " " ++ n.message

/-- The line that shows a notice. -/
def line (n : Notice) : String := n.level.name ++ ":" ++ loggerName ++ ":" ++ n.message ++ "\n"

/-- The lines of the notices that reach a threshold. -/
def shown (threshold : Level) (log : List Notice) : String :=
  String.join ((log.filter (threshold.rank ≤ ·.level.rank)).map line)

end Notice

end SecurityDescriptor

import SecurityDescriptor.Text.Hex

/-!
# Decoding errors

Why bytes are no record, each cause with the facts that its message states.

The last two causes are those of a stream, which counts its bytes in signed numbers of 64
bits: it refuses a size or a position that is none before anything is read.
-/

namespace SecurityDescriptor

/-- Why a decode ends without a record. -/
inductive DecodeError where
  /-- A read wanted `needed` bytes and `available` were left; `what` names the field. -/
  | insufficientData (needed available : Int) (what : Option String)
  /-- An entry's type has no form that could be decoded. -/
  | unrecognizedVariant (aceType : Int)
  /-- In strict mode: a record's size field differs from the bytes it took. -/
  | sizeMismatch (record : String) (declared consumed : Int)
  /-- Any other cause, in words. -/
  | general (message : String)
  /-- A read was asked for a size that a stream cannot count. -/
  | sizeOverflow
  /-- A stream was sent to a position that it cannot count. -/
  | positionOverflow
deriving DecidableEq, Repr

namespace DecodeError

/-- The text of an error. -/
def message : DecodeError → String
  | insufficientData needed available what =>
    "Not enough data! Needed " ++ toString needed ++ " bytes, only " ++ toString available
      ++ " available" ++ what.elim "" (" while reading " ++ ·)
  | unrecognizedVariant t => "ACE type 0x" ++ Hex.signed 2 t ++ " is not supported!"
  | sizeMismatch record declared consumed =>
    record ++ " declares " ++ toString declared ++ " bytes but " ++ toString consumed
      ++ " bytes were decoded"
  | general m => m
  | sizeOverflow => "cannot fit 'int' into an index-sized integer"
  | positionOverflow => "Python int too large to convert to C ssize_t"

end DecodeError

end SecurityDescriptor

import SecurityDescriptor.Text.Hex

/-!
# Traces

What a decode reports on its way, in order, whether or not it ends with a record.
-/

namespace SecurityDescriptor

/-- The parts of a descriptor that its header points to, in decoding order. -/
inductive Part where
  | owner
  | group
  | sacl
  | dacl
deriving DecidableEq, Repr

/-- The name of a part. -/
def Part.name : Part → String
  | owner => "Owner"
  | group => "Group"
  | sacl => "Sacl"
  | dacl => "Dacl"

/-- A step worth reporting. -/
inductive Event where
  /-- The decoder turns to the part at `offset`. -/
  | following (part : Part) (offset : Nat)
  /-- An ACL's header was read. -/
  | aclHeader (revision aceCount size : Nat)
  /-- The entry at `offset` has a type that is not decoded. -/
  | unsupportedAce (aceType : UInt8) (offset : Nat)
deriving DecidableEq, Repr

namespace Event

/-- The text of an event. -/
def message : Event → String
  | following part offset => "Following " ++ part.name ++ " offset " ++ toString offset
  | aclHeader revision aceCount size =>
    "ACL revision " ++ toString revision ++ " declares " ++ toString aceCount ++ " ACEs in "
      ++ toString size ++ " bytes"
  | unsupportedAce t offset =>
    "Unsupported ACE type 0x" ++ String.ofList (Hex.fixed 2 t.toNat) ++ " at offset "
      ++ toString offset

/-- The same event in a stream with `p` bytes more in front of it. -/
def shift (p : Nat) : Event → Event
  | unsupportedAce t offset => unsupportedAce t (offset + p)
  | e => e

end Event

end SecurityDescriptor

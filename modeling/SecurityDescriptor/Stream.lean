import SecurityDescriptor.Record

/-!
# Sequences of reads

Steps that act on one byte stream, one after the other.  Each starts where the step
before left the stream, also if that step failed.
-/

namespace SecurityDescriptor

/-- Goes to a position of the stream over `data`, unless the stream cannot count it. -/
def Decoder.moveTo (data : Bytes) (pos : Nat) : Decoder Unit := fun c =>
  if IsIndex pos then ⟨.ok (), .seek data pos, []⟩ else ⟨.error .positionOverflow, c, []⟩

/-- One step on a stream. -/
inductive Step where
  /-- Goes to a position, which may lie past the end. -/
  | seek (pos : Nat)
  /-- Reads bytes. -/
  | readExact (size : Int) (what : Option String)
  /-- Reads a number. -/
  | readUInt (size : Int) (what : Option String)
  /-- Reads a record. -/
  | decode (kind : Kind) (mode : Mode)

/-- What a step gives. -/
inductive Answer where
  | moved
  | bytes (value : Bytes)
  | number (value : Nat)
  | record (value : Record)

namespace Step

/-- Takes a step on the stream over `data`. -/
def run (data : Bytes) : Step → Decoder Answer
  | seek pos => (fun _ => .moved) <$> Decoder.moveTo data pos
  | readExact size what => .bytes <$> Decoder.readExact size what
  | readUInt size what => .number <$> Decoder.readUInt size what
  | decode kind mode => .record <$> kind.decoder mode

/-- Takes all steps, and tells how each of them ended. -/
def runAll (data : Bytes) : Cursor → List Step → List (Run Answer)
  | _, [] => []
  | c, s :: ss =>
    let r := s.run data c
    r :: runAll data r.cursor ss

end Step

end SecurityDescriptor

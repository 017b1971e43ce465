import SecurityDescriptor.Acl

/-!
# Security descriptors

A self-relative descriptor starts with a 20-byte header.  Four of its fields are offsets
of the descriptor's parts, counted from the first byte of the header; an offset of zero
means that the part is absent.  No other field tells which parts there are, and parts may
lie anywhere, also on top of each other.

Each part is decoded from the bytes at its offset on, as if they were a stream of their
own: in order owner, group, SACL, DACL, until one fails.
-/

namespace SecurityDescriptor

/-! ## Headers -/

/-- The first twenty bytes of a descriptor. -/
structure Header where
  revision : UInt8
  sbz1 : UInt8
  control : UInt16
  offsetOwner : UInt32
  offsetGroup : UInt32
  offsetSacl : UInt32
  offsetDacl : UInt32
deriving DecidableEq

namespace Header

/-- The offset of a part. -/
def offset (h : Header) : Part → UInt32
  | .owner => h.offsetOwner
  | .group => h.offsetGroup
  | .sacl => h.offsetSacl
  | .dacl => h.offsetDacl

/-- The lines of a header. -/
def text (h : Header) : String :=
  Text.line ("Revision : " ++ toString h.revision.toNat)
    ++ Text.line ("Control : 0x" ++ String.ofList (Hex.fixed 4 h.control.toNat))
    ++ Text.line ("OffsetOwner : " ++ toString h.offsetOwner.toNat)
    ++ Text.line ("OffsetGroup : " ++ toString h.offsetGroup.toNat)
    ++ Text.line ("OffsetSacl : " ++ toString h.offsetSacl.toNat)
    ++ Text.line ("OffsetDacl : " ++ toString h.offsetDacl.toNat)

/-- The wire form. -/
def encode (h : Header) : Bytes :=
  Bytes.ofUInt8 h.revision ++ Bytes.ofUInt8 h.sbz1 ++ Bytes.ofUInt16 h.control
    ++ Bytes.ofUInt32 h.offsetOwner ++ Bytes.ofUInt32 h.offsetGroup
    ++ Bytes.ofUInt32 h.offsetSacl ++ Bytes.ofUInt32 h.offsetDacl

/-- Reads a header and follows none of its offsets. -/
def decoder : Decoder Header := do
  let revision ← Decoder.readUInt8 "SECURITY_DESCRIPTOR Revision"
  let sbz1 ← Decoder.readUInt8 "SECURITY_DESCRIPTOR Sbz1"
  let control ← Decoder.readUInt16 "SECURITY_DESCRIPTOR Control"
  let offsetOwner ← Decoder.readUInt32 "SECURITY_DESCRIPTOR OffsetOwner"
  let offsetGroup ← Decoder.readUInt32 "SECURITY_DESCRIPTOR OffsetGroup"
  let offsetSacl ← Decoder.readUInt32 "SECURITY_DESCRIPTOR OffsetSacl"
  let offsetDacl ← Decoder.readUInt32 "SECURITY_DESCRIPTOR OffsetDacl"
  pure ⟨revision, sbz1, control, offsetOwner, offsetGroup, offsetSacl, offsetDacl⟩

end Header

/-! ## Descriptors -/

/-- A descriptor and the parts it has. -/
structure Descriptor where
  header : Header
  owner : Option Sid
  group : Option Sid
  sacl : Option Acl
  dacl : Option Acl
deriving DecidableEq

namespace Descriptor

/-- The lines of a descriptor. -/
def text (d : Descriptor) : String :=
  Text.line "=== SECURITY_DESCRIPTOR =="
    ++ Text.line ("Revision : " ++ toString d.header.revision.toNat)
    ++ Text.line ("Control : 0x" ++ String.ofList (Hex.fixed 4 d.header.control.toNat))
    ++ Text.line ("Owner : " ++ Text.orNone (d.owner.map Sid.text))
    ++ Text.line ("Group : " ++ Text.orNone (d.group.map Sid.text))
    ++ Text.line ("Sacl : " ++ Text.orNone (d.sacl.map Acl.text))
    ++ Text.line ("Dacl : " ++ Text.orNone (d.dacl.map Acl.text))

/-- Decodes the part at an offset, if it is not zero.  The offset has to lie inside the
data: the part's first byte is what is missing else. -/
def follow {α : Type} (data : Bytes) (part : Part) (offset : UInt32) (d : Decoder α) :
    Decoder (Option α) :=
  if offset = 0 then pure none
  else if offset.toNat < data.length then do
    Decoder.report (.following part offset.toNat)
    some <$> Decoder.within (data.drop offset.toNat) d
  else
    Decoder.fail
      (.insufficientData (offset.toNat + 1) data.length ("SECURITY_DESCRIPTOR " ++ part.name))

/-- Decodes the descriptor that `data` is. -/
def ofBytes (mode : Mode) (data : Bytes) : Decoder Descriptor := do
  let header ← Decoder.within data Header.decoder
  let owner ← follow data .owner header.offsetOwner Sid.decoder
  let group ← follow data .group header.offsetGroup Sid.decoder
  let sacl ← follow data .sacl header.offsetSacl (Acl.decoder mode)
  let dacl ← follow data .dacl header.offsetDacl (Acl.decoder mode)
  pure ⟨header, owner, group, sacl, dacl⟩

/-- Takes all that is left of a stream as a descriptor. -/
def decoder (mode : Mode) : Decoder Descriptor := Decoder.readRest >>= ofBytes mode

theorem decoder_apply (mode : Mode) (c : Cursor) :
    decoder mode c = ofBytes mode c.rest c.finish := rfl

end Descriptor

end SecurityDescriptor

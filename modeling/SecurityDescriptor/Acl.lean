import SecurityDescriptor.Ace

/-!
# Access control lists

An ACL is an 8-byte header and as many entries as the header counts.  The declared size
does not steer the decoder; only the count does.
-/

namespace SecurityDescriptor

/-- The first eight bytes of an ACL. -/
structure AclHeader where
  revision : UInt8
  sbz1 : UInt8
  size : UInt16
  aceCount : UInt16
  sbz2 : UInt16
deriving DecidableEq

namespace AclHeader

/-- The wire form. -/
def encode (h : AclHeader) : Bytes :=
  Bytes.ofUInt8 h.revision ++ Bytes.ofUInt8 h.sbz1 ++ Bytes.ofUInt16 h.size
    ++ Bytes.ofUInt16 h.aceCount ++ Bytes.ofUInt16 h.sbz2

/-- Reads a header. -/
def decoder : Decoder AclHeader := do
  let revision ← Decoder.readUInt8 "ACL AclRevision"
  let sbz1 ← Decoder.readUInt8 "ACL Sbz1"
  let size ← Decoder.readUInt16 "ACL AclSize"
  let aceCount ← Decoder.readUInt16 "ACL AceCount"
  let sbz2 ← Decoder.readUInt16 "ACL Sbz2"
  pure ⟨revision, sbz1, size, aceCount, sbz2⟩

end AclHeader

/-- An access control list. -/
structure Acl where
  revision : UInt8
  sbz1 : UInt8
  size : UInt16
  sbz2 : UInt16
  aces : List Ace
  length_le : aces.length ≤ 65535
deriving DecidableEq

namespace Acl

/-- The count field. -/
def aceCount (a : Acl) : UInt16 := UInt16.ofNat a.aces.length

/-- The header. -/
def header (a : Acl) : AclHeader := ⟨a.revision, a.sbz1, a.size, a.aceCount, a.sbz2⟩

/-- The lines of a list, each entry followed by an empty line. -/
def text (a : Acl) : String :=
  Text.line "=== ACL ===" ++ String.join (a.aces.map fun ace => Text.line ace.text)

/-- The wire form. -/
def encode (a : Acl) : Bytes := a.header.encode ++ a.aces.flatMap Ace.encode

/-- Reads a list, whatever size it declares. -/
def body (mode : Mode) : Decoder Acl := do
  let header ← AclHeader.decoder
  Decoder.report
    (.aclHeader header.revision.toNat header.aceCount.toNat header.size.toNat)
  let ⟨aces, h⟩ ← Decoder.replicate (Ace.decoder mode) header.aceCount.toNat
  pure ⟨header.revision, header.sbz1, header.size, header.sbz2, aces, by
    have := header.aceCount.toNat_lt
    omega⟩

/-- Reads a list. -/
def decoder (mode : Mode) : Decoder Acl := mode.sized (fun _ => "ACL") (·.size) (body mode)

theorem toNat_aceCount (a : Acl) : a.aceCount.toNat = a.aces.length := by
  have h := a.length_le
  rw [aceCount, UInt16.toNat_ofNat']
  omega

end Acl

end SecurityDescriptor

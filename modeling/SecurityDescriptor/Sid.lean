import SecurityDescriptor.Decoder

/-!
# Security identifiers

A SID is a revision, a 6-byte authority and up to 255 sub-authorities.  On the wire the
authority is big-endian and all else little-endian, and a count byte stands in front of
the authority.  Its text is `S-` revision `-` authority `-` sub-authorities.
-/

namespace SecurityDescriptor

/-! ## Authorities -/

/-- Who issued an identifier. -/
structure Authority where
  value : Block 6
deriving DecidableEq

namespace Authority

/-- The authority as a number. -/
def toNat (a : Authority) : Nat := a.value.bytes.toNatBE

/-- Decimal below `2 ^ 32`, else all 12 hexadecimal digits. -/
def text (a : Authority) : String :=
  if a.toNat < 0x100000000 then toString a.toNat
  else "0x" ++ String.ofList (Hex.fixedUpper 12 a.toNat)

/-- The wire form. -/
def encode (a : Authority) : Bytes := a.value.bytes

instance : Hashable Authority := ⟨fun a => hash a.encode⟩

/-- Reads an authority. -/
def decoder : Decoder Authority :=
  mk <$> Decoder.readBlock 6 (some "SID_IDENTIFIER_AUTHORITY")

end Authority

/-! ## Identifiers -/

/-- A security identifier. -/
structure Sid where
  revision : UInt8
  authority : Authority
  subAuthorities : List UInt32
  length_le : subAuthorities.length ≤ 255
deriving DecidableEq

namespace Sid

/-- The count byte. -/
def subAuthorityCount (s : Sid) : UInt8 := UInt8.ofNat s.subAuthorities.length

/-- The text of an identifier. -/
def text (s : Sid) : String :=
  "S-" ++ toString s.revision.toNat ++ "-" ++ s.authority.text
    ++ String.join (s.subAuthorities.map fun n => "-" ++ toString n.toNat)

/-- The text that shows the kind of value too. -/
def shown (s : Sid) : String := "<SID " ++ s.text ++ ">"

/-- Equal identifiers have equal texts, so the text may stand for the value. -/
instance : Hashable Sid := ⟨fun s => hash s.text⟩

/-- The wire form. -/
def encode (s : Sid) : Bytes :=
  Bytes.ofUInt8 s.revision ++ Bytes.ofUInt8 s.subAuthorityCount ++ s.authority.encode
    ++ s.subAuthorities.flatMap Bytes.ofUInt32

/-- Reads an identifier. -/
def decoder : Decoder Sid := do
  let revision ← Decoder.readUInt8 "SID Revision"
  let count ← Decoder.readUInt8 "SID SubAuthorityCount"
  let authority ← Authority.decoder
  let ⟨subAuthorities, h⟩ ←
    Decoder.replicate (Decoder.readUInt32 "SID SubAuthority") count.toNat
  pure ⟨revision, authority, subAuthorities, by have := count.toNat_lt; omega⟩

theorem toNat_subAuthorityCount (s : Sid) :
    s.subAuthorityCount.toNat = s.subAuthorities.length := by
  have h := s.length_le
  rw [subAuthorityCount, UInt8.toNat_ofNat']
  omega

@[simp] theorem length_encode (s : Sid) :
    s.encode.length = 8 + 4 * s.subAuthorities.length := by
  have h : (s.subAuthorities.flatMap Bytes.ofUInt32).length = 4 * s.subAuthorities.length := by
    induction s.subAuthorities with
    | nil => rfl
    | cons n ns ih =>
      simp only [List.flatMap_cons, List.length_append, Bytes.length_ofUInt32, ih,
        List.length_cons]
      omega
  simp [encode, Authority.encode, Block.length_bytes, h]
  omega

end Sid

end SecurityDescriptor

import SecurityDescriptor.Decoder

/-!
# Globally unique identifiers

A GUID is three numbers and eight bytes.  On the wire the numbers are little-endian; in
the text they are written like any number, most significant digit first, so the first
half of the text does not follow the order of the bytes.
-/

namespace SecurityDescriptor

/-- A globally unique identifier. -/
structure Guid where
  data1 : UInt32
  data2 : UInt16
  data3 : UInt16
  data4 : Block 8
deriving DecidableEq

namespace Guid

/-- The text of an identifier: 8, 4, 4, 4 and 12 lower-case digits. -/
def text (g : Guid) : String :=
  String.ofList (Hex.fixed 8 g.data1.toNat) ++ "-" ++ String.ofList (Hex.fixed 4 g.data2.toNat)
    ++ "-" ++ String.ofList (Hex.fixed 4 g.data3.toNat) ++ "-" ++ Hex.text (g.data4.bytes.take 2)
    ++ "-" ++ Hex.text (g.data4.bytes.drop 2)

/-- The text that shows the kind of value too. -/
def shown (g : Guid) : String := "<GUID " ++ g.text ++ ">"

/-- The wire form. -/
def encode (g : Guid) : Bytes :=
  Bytes.ofUInt32 g.data1 ++ Bytes.ofUInt16 g.data2 ++ Bytes.ofUInt16 g.data3 ++ g.data4.bytes

instance : Hashable Guid := ⟨fun g => hash g.encode⟩

/-- The identifier that 16 bytes hold. -/
def ofBlock (b : Block 16) : Guid where
  data1 := UInt32.ofNat (Bytes.toNatLE (b.bytes.take 4))
  data2 := UInt16.ofNat (Bytes.toNatLE ((b.bytes.drop 4).take 2))
  data3 := UInt16.ofNat (Bytes.toNatLE ((b.bytes.drop 6).take 2))
  data4 := ⟨b.bytes.drop 8, by rw [List.length_drop, b.length_bytes]⟩

/-- Reads an identifier, all bytes at once. -/
def decoder : Decoder Guid := ofBlock <$> Decoder.readBlock 16 (some "GUID")

@[simp] theorem length_encode (g : Guid) : g.encode.length = 16 := by
  simp [encode, Block.length_bytes]

end Guid

end SecurityDescriptor

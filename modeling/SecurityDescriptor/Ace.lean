import SecurityDescriptor.AceType
import SecurityDescriptor.Guid
import SecurityDescriptor.Mode
import SecurityDescriptor.Sid
import SecurityDescriptor.Text.Line

/-!
# Access control entries

An entry is a 4-byte header and a payload.  The header's type byte tells the access and
the payload's layout; types without a form stop the decoder right after the header.  An
object payload has the GUIDs that the two lowest bits of its flag word announce, in the
order of the bits; the other bits are kept and have no effect.

The values of these types are exactly the entries that have a wire form.
-/

namespace SecurityDescriptor

/-! ## Headers -/

/-- The first four bytes of an entry, of any type. -/
structure AceHeader where
  aceType : UInt8
  flags : UInt8
  size : UInt16
deriving DecidableEq

namespace AceHeader

/-- The wire form. -/
def encode (h : AceHeader) : Bytes :=
  Bytes.ofUInt8 h.aceType ++ Bytes.ofUInt8 h.flags ++ Bytes.ofUInt16 h.size

/-- Reads a header. -/
def decoder : Decoder AceHeader := do
  let aceType ← Decoder.readUInt8 "ACE type"
  let flags ← Decoder.readUInt8 "ACE flags"
  let size ← Decoder.readUInt16 "ACE size"
  pure ⟨aceType, flags, size⟩

end AceHeader

/-! ## Payloads -/

/-- A mask of rights and the trustee they concern. -/
structure PlainPayload where
  mask : UInt32
  sid : Sid
deriving DecidableEq

namespace PlainPayload

/-- The lines of a payload. -/
def text (p : PlainPayload) : String :=
  Text.line ("Sid: " ++ p.sid.text)
    ++ Text.line ("Mask: 0x" ++ String.ofList (Hex.fixed 8 p.mask.toNat))

/-- The wire form. -/
def encode (p : PlainPayload) : Bytes := Bytes.ofUInt32 p.mask ++ p.sid.encode

/-- Reads a payload. -/
def decoder : Decoder PlainPayload := do
  let mask ← Decoder.readUInt32 "ACE Mask"
  let sid ← Sid.decoder
  pure ⟨mask, sid⟩

theorem length_encode (p : PlainPayload) :
    p.encode.length = 12 + 4 * p.sid.subAuthorities.length := by
  simp [encode]
  omega

end PlainPayload

/-- The flag word announces the GUID of an object type. -/
def announcesObjectType (flags : UInt32) : Bool := flags.toNat.testBit 0

/-- The flag word announces the GUID of an inherited object type. -/
def announcesInheritedObjectType (flags : UInt32) : Bool := flags.toNat.testBit 1

/-- A payload that may be limited to objects of a type, or to heirs of a type. -/
structure ObjectPayload where
  mask : UInt32
  flags : UInt32
  objectType : Option Guid
  inheritedObjectType : Option Guid
  sid : Sid
  isSome_objectType : objectType.isSome = announcesObjectType flags
  isSome_inheritedObjectType : inheritedObjectType.isSome = announcesInheritedObjectType flags
deriving DecidableEq

namespace ObjectPayload

/-- The lines of a payload. -/
def text (p : ObjectPayload) : String :=
  Text.line ("Sid: " ++ p.sid.text)
    ++ Text.line ("Mask: 0x" ++ String.ofList (Hex.fixed 8 p.mask.toNat))
    ++ Text.line ("ObjectFlags: 0x" ++ String.ofList (Hex.fixed 8 p.flags.toNat))
    ++ Text.line ("ObjectType: " ++ Text.orNone (p.objectType.map Guid.text))
    ++ Text.line ("InheritedObjectType: " ++ Text.orNone (p.inheritedObjectType.map Guid.text))

/-- The wire form. -/
def encode (p : ObjectPayload) : Bytes :=
  Bytes.ofUInt32 p.mask ++ Bytes.ofUInt32 p.flags ++ p.objectType.elim [] Guid.encode
    ++ p.inheritedObjectType.elim [] Guid.encode ++ p.sid.encode

/-- Reads a payload. -/
def decoder : Decoder ObjectPayload := do
  let mask ← Decoder.readUInt32 "ACE Mask"
  let flags ← Decoder.readUInt32 "ACE object flags"
  let ⟨objectType, h⟩ ← Decoder.optional (announcesObjectType flags) Guid.decoder
  let ⟨inheritedObjectType, h'⟩ ←
    Decoder.optional (announcesInheritedObjectType flags) Guid.decoder
  let sid ← Sid.decoder
  pure ⟨mask, flags, objectType, inheritedObjectType, sid, h, h'⟩

theorem length_encode (p : ObjectPayload) :
    p.encode.length = 16 + 16 * p.objectType.toList.length
      + 16 * p.inheritedObjectType.toList.length + 4 * p.sid.subAuthorities.length := by
  have hguid : ∀ g : Option Guid, (g.elim [] Guid.encode).length = 16 * g.toList.length := by
    rintro (_ | g)
    · rfl
    · exact g.length_encode
  simp [encode, hguid]
  omega

end ObjectPayload

/-- What an entry holds after its header. -/
inductive Payload where
  | plain (p : PlainPayload)
  | object (p : ObjectPayload)
deriving DecidableEq

namespace Payload

/-- How a payload is laid out. -/
def layout : Payload → Layout
  | plain _ => .plain
  | object _ => .object

/-- The rights. -/
def mask : Payload → UInt32
  | plain p => p.mask
  | object p => p.mask

/-- The trustee. -/
def sid : Payload → Sid
  | plain p => p.sid
  | object p => p.sid

/-- The flag word, which only object payloads have. -/
def flags? : Payload → Option UInt32
  | plain _ => none
  | object p => some p.flags

/-- The type of object the entry is limited to. -/
def objectType? : Payload → Option Guid
  | plain _ => none
  | object p => p.objectType

/-- The type of heir the entry is limited to. -/
def inheritedObjectType? : Payload → Option Guid
  | plain _ => none
  | object p => p.inheritedObjectType

/-- The lines of a payload. -/
def text : Payload → String
  | plain p => p.text
  | object p => p.text

/-- The wire form. -/
def encode : Payload → Bytes
  | plain p => p.encode
  | object p => p.encode

/-- Reads a payload of a given layout. -/
def decoder : Layout → Decoder Payload
  | .plain => plain <$> PlainPayload.decoder
  | .object => object <$> ObjectPayload.decoder

end Payload

/-! ## Entries -/

/-- An entry of a type that is decoded. -/
structure Ace where
  access : Access
  flags : UInt8
  size : UInt16
  payload : Payload
deriving DecidableEq

namespace Ace

/-- The type, which the access and the layout tell. -/
def aceType (a : Ace) : AceType := .ofForm a.access a.payload.layout

/-- The header. -/
def header (a : Ace) : AceHeader := ⟨a.aceType.code, a.flags, a.size⟩

/-- The lines of an entry. -/
def text (a : Ace) : String :=
  Text.line a.aceType.name
    ++ Text.line ("AceFlags: 0x" ++ String.ofList (Hex.fixed 2 a.flags.toNat))
    ++ a.payload.text

/-- The wire form. -/
def encode (a : Ace) : Bytes := a.header.encode ++ a.payload.encode

/-- The access and the layout of the entries with a given type byte. -/
def form? (b : UInt8) : Option (Access × Layout) := (AceType.ofCode? b).bind AceType.form?

/-- Reads an entry, whatever size it declares. -/
def body : Decoder Ace := do
  let start ← Decoder.position
  let header ← AceHeader.decoder
  match form? header.aceType with
  | none =>
    Decoder.report (.unsupportedAce header.aceType start)
    Decoder.fail (.unrecognizedVariant header.aceType.toNat)
  | some (access, layout) =>
    let payload ← Payload.decoder layout
    pure ⟨access, header.flags, header.size, payload⟩

/-- Reads an entry. -/
def decoder (mode : Mode) : Decoder Ace := mode.sized (·.aceType.name) (·.size) body

theorem length_encode (a : Ace) : a.encode.length = 4 + a.payload.encode.length := by
  simp [encode, AceHeader.encode]
  omega

theorem form?_aceType_code (a : Ace) :
    form? a.aceType.code = some (a.access, a.payload.layout) := by
  rw [form?, AceType.ofCode?_code]
  exact (AceType.ofForm_eq_iff ..).1 rfl

end Ace

end SecurityDescriptor

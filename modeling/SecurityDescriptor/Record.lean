import SecurityDescriptor.Descriptor

/-!
# Records of every kind

One name for each kind of record, the sum of their values, and one decoder for all.  A
record is read from a byte string (`Kind.ofBytes`), from a byte string with what is left
of it (`Kind.parse`), or at a position of a stream (`Kind.decoder` on a cursor).
-/

namespace SecurityDescriptor

/-- The kinds of records. -/
inductive Kind where
  | authority
  | sid
  | guid
  | aceHeader
  | plainPayload
  | objectPayload
  | ace
  | acl
  | header
  | descriptor
deriving DecidableEq, Repr

/-- A record of any kind. -/
inductive Record where
  | authority (a : Authority)
  | sid (s : Sid)
  | guid (g : Guid)
  | aceHeader (h : AceHeader)
  | plainPayload (p : PlainPayload)
  | objectPayload (p : ObjectPayload)
  | ace (a : Ace)
  | acl (a : Acl)
  | header (h : Header)
  | descriptor (d : Descriptor)
deriving DecidableEq

namespace Record

/-- The kind of a record. -/
def kind : Record → Kind
  | authority _ => .authority
  | sid _ => .sid
  | guid _ => .guid
  | aceHeader _ => .aceHeader
  | plainPayload _ => .plainPayload
  | objectPayload _ => .objectPayload
  | ace _ => .ace
  | acl _ => .acl
  | header _ => .header
  | descriptor _ => .descriptor

/-- The text of a record; an entry's header has none. -/
def text? : Record → Option String
  | authority a => some a.text
  | sid s => some s.text
  | guid g => some g.text
  | aceHeader _ => none
  | plainPayload p => some p.text
  | objectPayload p => some p.text
  | ace a => some a.text
  | acl a => some a.text
  | header h => some h.text
  | descriptor d => some d.text

end Record

namespace Kind

/-- Reads a record of a kind.  The mode matters to entries, ACLs and descriptors. -/
def decoder (mode : Mode) : Kind → Decoder Record
  | authority => .authority <$> Authority.decoder
  | sid => .sid <$> Sid.decoder
  | guid => .guid <$> Guid.decoder
  | aceHeader => .aceHeader <$> AceHeader.decoder
  | plainPayload => .plainPayload <$> PlainPayload.decoder
  | objectPayload => .objectPayload <$> ObjectPayload.decoder
  | ace => .ace <$> Ace.decoder mode
  | acl => .acl <$> Acl.decoder mode
  | header => .header <$> Header.decoder
  | descriptor => .descriptor <$> Descriptor.decoder mode

/-- Reads a record from the start of a byte string. -/
def ofBytes (mode : Mode) (k : Kind) (data : Bytes) : Run Record :=
  k.decoder mode (.start data)

/-- Reads a record from the start of a byte string, and gives what is left. -/
def parse (mode : Mode) (k : Kind) (data : Bytes) : Except DecodeError (Record × Bytes) :=
  let r := k.ofBytes mode data
  r.result.map (·, r.cursor.rest)

theorem kind_of_decoder {mode : Mode} {k : Kind} {c : Cursor} {r : Record}
    (h : (k.decoder mode c).result = .ok r) : r.kind = k := by
  cases k <;>
    (obtain ⟨a, -, rfl⟩ := Decoder.map_eq_ok_iff.1 h; rfl)

end Kind

end SecurityDescriptor

import SecurityDescriptor.Proofs.Grammar
import SecurityDescriptor.Record

/-!
# The wire format of records

Each decoder below the descriptor takes exactly the wire forms of its records, whatever
follows them: the fields in layout order, counts and flag words deciding what else there is.

    Reads Sid.decoder Sid.encode                     (Sid.reads_decoder)
    Reads (Ace.decoder .lenient) Ace.encode          (Ace.reads_decoder)
    Reads (Acl.decoder .lenient) Acl.encode          (Acl.reads_decoder)
    Reads Header.decoder Header.encode               (Header.reads_decoder)

What the counts, the type byte and the flag word of a record have to do with the rest of it
is said once more as `WellFormed`, on the fields as they stand on the wire.
-/

namespace SecurityDescriptor

open Decoder

/-! ## Identifiers -/

theorem Authority.reads_decoder : Reads Authority.decoder Authority.encode :=
  reads_map_readBlock _ (fun a => a.value.length_bytes) (fun _ => rfl) (fun _ => rfl)

theorem Sid.reads_decoder : Reads Sid.decoder Sid.encode := by
  apply ((reads_readUInt8 _).bind fun revision => (reads_readUInt8 _).bind fun count =>
    Authority.reads_decoder.bind fun authority =>
    (reads_replicate (reads_readUInt32 _) count.toNat).bind fun _ => Recognizes.pure _).congr
  intro s w
  constructor
  · rintro ⟨revision, _, ⟨count, _, ⟨authority, _, ⟨⟨ns, hn⟩, _, ⟨rfl, rfl⟩, rfl⟩, rfl⟩, rfl⟩, rfl⟩
    have hc : UInt8.ofNat ns.length = count := by rw [hn, UInt8.ofNat_toNat]
    simp [encode, subAuthorityCount, hc]
  · rintro rfl
    exact ⟨s.revision, _, ⟨s.subAuthorityCount, _, ⟨s.authority, _,
      ⟨⟨s.subAuthorities, s.toNat_subAuthorityCount.symm⟩, [], ⟨rfl, rfl⟩, rfl⟩, rfl⟩, rfl⟩,
      by simp [encode]⟩

namespace Guid

theorem encode_ofBlock (b : Block 16) : (ofBlock b).encode = b.bytes := by
  have hb := b.length_bytes
  have h1 : Bytes.ofUInt32 (ofBlock b).data1 = b.bytes.take 4 :=
    Bytes.ofUInt32_ofNat (by simp [hb])
  have h2 : Bytes.ofUInt16 (ofBlock b).data2 = (b.bytes.drop 4).take 2 :=
    Bytes.ofUInt16_ofNat (by simp [hb])
  have h3 : Bytes.ofUInt16 (ofBlock b).data3 = (b.bytes.drop 6).take 2 :=
    Bytes.ofUInt16_ofNat (by simp [hb])
  rw [encode, h1, h2, h3]
  show _ ++ b.bytes.drop 8 = _
  rw [← List.take_add, ← List.take_add, List.take_append_drop]

theorem ofBlock_encode (g : Guid) : ofBlock ⟨g.encode, g.length_encode⟩ = g := by
  rcases g with ⟨d1, d2, d3, d4⟩
  have h4 : (Bytes.ofUInt16 d2).drop 4 = [] := List.drop_of_length_le (by simp)
  have h6 : (Bytes.ofUInt32 d1).drop 6 = [] := List.drop_of_length_le (by simp)
  have h8 : (Bytes.ofUInt32 d1).drop 8 = [] := List.drop_of_length_le (by simp)
  simp [ofBlock, encode, List.drop_append, Bytes.ofNat_ofUInt16, Bytes.ofNat_ofUInt32, h4, h6, h8]

theorem reads_decoder : Reads Guid.decoder Guid.encode :=
  reads_map_readBlock _ length_encode encode_ofBlock ofBlock_encode

end Guid

/-! ## Entries -/

theorem AceHeader.reads_decoder : Reads AceHeader.decoder AceHeader.encode := by
  apply ((reads_readUInt8 _).bind fun _ => (reads_readUInt8 _).bind fun _ =>
    (reads_readUInt16 _).bind fun _ => Recognizes.pure _).congr
  intro h w
  constructor
  · rintro ⟨aceType, _, ⟨flags, _, ⟨size, _, ⟨rfl, rfl⟩, rfl⟩, rfl⟩, rfl⟩
    simp [encode]
  · rintro rfl
    exact ⟨h.aceType, _, ⟨h.flags, _, ⟨h.size, [], ⟨rfl, rfl⟩, rfl⟩, rfl⟩, by simp [encode]⟩

theorem PlainPayload.reads_decoder : Reads PlainPayload.decoder PlainPayload.encode := by
  apply ((reads_readUInt32 _).bind fun _ => Sid.reads_decoder.bind fun _ =>
    Recognizes.pure _).congr
  intro p w
  constructor
  · rintro ⟨mask, _, ⟨sid, _, ⟨rfl, rfl⟩, rfl⟩, rfl⟩
    simp [encode]
  · rintro rfl
    exact ⟨p.mask, _, ⟨p.sid, [], ⟨rfl, rfl⟩, rfl⟩, by simp [encode]⟩

theorem ObjectPayload.reads_decoder : Reads ObjectPayload.decoder ObjectPayload.encode := by
  apply ((reads_readUInt32 _).bind fun _ => (reads_readUInt32 _).bind fun _ =>
    (reads_optional Guid.reads_decoder _).bind fun _ =>
    (reads_optional Guid.reads_decoder _).bind fun _ => Sid.reads_decoder.bind fun _ =>
    Recognizes.pure _).congr
  intro p w
  constructor
  · rintro ⟨mask, _, ⟨flags, _, ⟨⟨t, ht⟩, _, ⟨⟨t', ht'⟩, _, ⟨sid, _, ⟨rfl, rfl⟩, rfl⟩, rfl⟩, rfl⟩,
      rfl⟩, rfl⟩
    simp [encode]
  · rintro rfl
    exact ⟨p.mask, _, ⟨p.flags, _, ⟨⟨p.objectType, p.isSome_objectType⟩, _,
      ⟨⟨p.inheritedObjectType, p.isSome_inheritedObjectType⟩, _,
        ⟨p.sid, [], ⟨rfl, rfl⟩, rfl⟩, rfl⟩, rfl⟩, rfl⟩, by simp [encode]⟩

/-- Of a layout's payloads, those forms and no others. -/
theorem Payload.recognizes_decoder (l : Layout) :
    Recognizes (Payload.decoder l) fun p w => p.layout = l ∧ w = p.encode := by
  cases l with
  | plain =>
    apply (Recognizes.map PlainPayload.reads_decoder _).congr
    rintro (p | p) w <;> simp [layout, encode]
  | object =>
    apply (Recognizes.map ObjectPayload.reads_decoder _).congr
    rintro (p | p) w <;> simp [layout, encode]

namespace Ace

/-- A type byte has a form exactly if it is the code of the type with that form. -/
theorem form?_eq_some_iff {b : UInt8} {a : Access} {l : Layout} :
    form? b = some (a, l) ↔ b = (AceType.ofForm a l).code := by
  constructor
  · intro h
    obtain ⟨t, ht, hf⟩ := Option.bind_eq_some_iff.1 h
    rw [(AceType.ofForm_eq_iff a l t).2 hf, AceType.code_of_ofCode? ht]
  · rintro rfl
    rw [form?, AceType.ofCode?_code]
    exact (AceType.ofForm_eq_iff ..).1 rfl

/-- What stands behind a header that was read. -/
theorem recognizes_ofHeader (h : AceHeader) (start : Nat) :
    Recognizes
      (match form? h.aceType with
        | none => do
          Decoder.report (.unsupportedAce h.aceType start)
          Decoder.fail (.unrecognizedVariant h.aceType.toNat)
        | some (access, layout) => do
          let payload ← Payload.decoder layout
          pure (⟨access, h.flags, h.size, payload⟩ : Ace))
      fun a w => h = a.header ∧ w = a.payload.encode := by
  split
  · next hf =>
    apply (Recognizes.report _ (Recognizes.fail _)).congr
    rintro a w
    constructor
    · exact False.elim
    · rintro ⟨rfl, -⟩
      rw [header, form?_aceType_code] at hf
      cases hf
  · next access layout hf =>
    have hb := form?_eq_some_iff.1 hf
    apply ((Payload.recognizes_decoder layout).bind fun _ => Recognizes.pure _).congr
    intro a w
    constructor
    · rintro ⟨p, _, _, ⟨rfl, rfl⟩, ⟨rfl, rfl⟩, rfl⟩
      rw [List.append_nil]
      exact ⟨congrArg (AceHeader.mk · h.flags h.size) hb, rfl⟩
    · rintro ⟨rfl, rfl⟩
      rw [header, form?_aceType_code] at hf
      cases hf
      exact ⟨a.payload, _, [], ⟨rfl, rfl⟩, ⟨rfl, rfl⟩, (List.append_nil _).symm⟩

theorem reads_body : Reads body Ace.encode := by
  apply (Recognizes.position fun start => AceHeader.reads_decoder.bind fun h =>
    recognizes_ofHeader h start).congr
  intro a w
  constructor
  · rintro ⟨h, _, ⟨rfl, rfl⟩, rfl⟩
    rfl
  · rintro rfl
    exact ⟨a.header, _, ⟨rfl, rfl⟩, rfl⟩

theorem reads_decoder : Reads (Ace.decoder .lenient) Ace.encode := by
  rw [Ace.decoder, Mode.sized_lenient]
  exact reads_body

end Ace

/-! ## Lists -/

theorem AclHeader.reads_decoder : Reads AclHeader.decoder AclHeader.encode := by
  apply ((reads_readUInt8 _).bind fun _ => (reads_readUInt8 _).bind fun _ =>
    (reads_readUInt16 _).bind fun _ => (reads_readUInt16 _).bind fun _ =>
    (reads_readUInt16 _).bind fun _ => Recognizes.pure _).congr
  intro h w
  constructor
  · rintro ⟨revision, _, ⟨sbz1, _, ⟨size, _, ⟨count, _, ⟨sbz2, _, ⟨rfl, rfl⟩, rfl⟩, rfl⟩, rfl⟩,
      rfl⟩, rfl⟩
    simp [encode]
  · rintro rfl
    exact ⟨h.revision, _, ⟨h.sbz1, _, ⟨h.size, _, ⟨h.aceCount, _, ⟨h.sbz2, [], ⟨rfl, rfl⟩, rfl⟩,
      rfl⟩, rfl⟩, rfl⟩, by simp [encode]⟩

theorem Acl.reads_decoder : Reads (Acl.decoder .lenient) Acl.encode := by
  rw [Acl.decoder, Mode.sized_lenient]
  apply (AclHeader.reads_decoder.bind fun h => Recognizes.report _
    ((reads_replicate Ace.reads_decoder h.aceCount.toNat).bind fun _ => Recognizes.pure _)).congr
  intro a w
  constructor
  · rintro ⟨h, _, ⟨⟨aces, hn⟩, _, ⟨rfl, rfl⟩, rfl⟩, rfl⟩
    have hc : UInt16.ofNat aces.length = h.aceCount := by rw [hn, UInt16.ofNat_toNat]
    simp [encode, header, aceCount, hc]
  · rintro rfl
    exact ⟨a.header, _, ⟨⟨a.aces, a.toNat_aceCount.symm⟩, [], ⟨rfl, rfl⟩, rfl⟩, by simp [encode]⟩

/-! ## Headers of descriptors -/

theorem Header.reads_decoder : Reads Header.decoder Header.encode := by
  apply ((reads_readUInt8 _).bind fun _ => (reads_readUInt8 _).bind fun _ =>
    (reads_readUInt16 _).bind fun _ => (reads_readUInt32 _).bind fun _ =>
    (reads_readUInt32 _).bind fun _ => (reads_readUInt32 _).bind fun _ =>
    (reads_readUInt32 _).bind fun _ => Recognizes.pure _).congr
  intro h w
  constructor
  · rintro ⟨revision, _, ⟨sbz1, _, ⟨control, _, ⟨owner, _, ⟨group, _, ⟨sacl, _, ⟨dacl, _,
      ⟨rfl, rfl⟩, rfl⟩, rfl⟩, rfl⟩, rfl⟩, rfl⟩, rfl⟩, rfl⟩
    simp [encode]
  · rintro rfl
    exact ⟨h.revision, _, ⟨h.sbz1, _, ⟨h.control, _, ⟨h.offsetOwner, _, ⟨h.offsetGroup, _,
      ⟨h.offsetSacl, _, ⟨h.offsetDacl, [], ⟨rfl, rfl⟩, rfl⟩, rfl⟩, rfl⟩, rfl⟩, rfl⟩, rfl⟩,
      by simp [encode]⟩

/-! ## Well-formed records -/

/-- The authority has its width, and the count byte tells the number of sub-authorities. -/
def Sid.WellFormed (s : Sid) : Prop :=
  s.authority.encode.length = 6 ∧ s.subAuthorities.length = s.subAuthorityCount.toNat

/-- The type byte tells the payload, and the two lowest bits of an object payload's flag
word tell which GUIDs it has. -/
def Ace.WellFormed (a : Ace) : Prop :=
  a.payload.sid.WellFormed ∧
    match a.payload with
    | .plain _ => a.header.aceType = 0x00 ∨ a.header.aceType = 0x01
    | .object p => (a.header.aceType = 0x05 ∨ a.header.aceType = 0x06) ∧
        (p.objectType.isSome ↔ p.flags &&& 0x1 ≠ 0) ∧
        (p.inheritedObjectType.isSome ↔ p.flags &&& 0x2 ≠ 0)

/-- The count field tells the number of entries. -/
def Acl.WellFormed (a : Acl) : Prop :=
  a.aces.length = a.header.aceCount.toNat ∧ ∀ ace ∈ a.aces, ace.WellFormed

theorem Sid.wellFormed (s : Sid) : s.WellFormed :=
  ⟨s.authority.value.length_bytes, s.toNat_subAuthorityCount.symm⟩

/-- A mask of one bit asks for that bit. -/
theorem testBit_iff_and_ne_zero {mask : UInt32} {i : Nat} (hm : mask.toNat = 2 ^ i)
    (word : UInt32) : word.toNat.testBit i ↔ word &&& mask ≠ 0 := by
  rw [Ne, ← UInt32.toNat_inj, UInt32.toNat_and, hm, Nat.and_two_pow]
  cases word.toNat.testBit i <;> simp

theorem Ace.wellFormed (a : Ace) : a.WellFormed := by
  refine ⟨a.payload.sid.wellFormed, ?_⟩
  rcases a with ⟨access, flags, size, p | p⟩
  · cases access
    · exact Or.inl rfl
    · exact Or.inr rfl
  · refine ⟨?_, ?_, ?_⟩
    · cases access
      · exact Or.inl rfl
      · exact Or.inr rfl
    · rw [p.isSome_objectType]
      exact testBit_iff_and_ne_zero rfl p.flags
    · rw [p.isSome_inheritedObjectType]
      exact testBit_iff_and_ne_zero rfl p.flags

theorem Acl.wellFormed (a : Acl) : a.WellFormed :=
  ⟨a.toNat_aceCount.symm, fun ace _ => ace.wellFormed⟩

/-! ## Parsing -/

/-- What a kind's decoder reads tells what parsing gives and what it leaves. -/
theorem Kind.parse_eq_ok_iff_of_reads {α : Type} {mode : Mode} {k : Kind} {d : Decoder α}
    {enc : α → Bytes} {mk : α → Record} (hk : k.decoder mode = mk <$> d) (hd : Reads d enc)
    (data rest : Bytes) (r : Record) :
    k.parse mode data = .ok (r, rest) ↔ ∃ a, r = mk a ∧ data = enc a ++ rest := by
  have h := hd.map mk 0 data r
  rw [← hk] at h
  rw [Kind.parse, Kind.ofBytes, Cursor.start]
  constructor
  · intro hp
    rcases hr : k.decoder mode ⟨0, data⟩ with ⟨e | r', c, t⟩
    · simp [hr, Except.map] at hp
    · simp only [hr, Except.map, Except.ok.injEq, Prod.mk.injEq] at hp
      obtain ⟨rfl, rfl⟩ := hp
      obtain ⟨w, rest, ⟨a, rfl, rfl⟩, rfl, rfl⟩ := (h c).1 (by rw [hr]; exact ⟨rfl, rfl⟩)
      exact ⟨a, rfl, rfl⟩
  · rintro ⟨a, rfl, rfl⟩
    obtain ⟨h1, h2⟩ := (h ⟨0 + (enc a).length, rest⟩).2 ⟨enc a, rest, ⟨a, rfl, rfl⟩, rfl, rfl⟩
    simp only [h1, h2, Except.map]

/-- **The prefix grammar of the nested records.**  Lenient parsing gives a record and a rest
exactly if the record is well-formed and its wire form stands in front of that rest. -/
theorem Kind.parse_lenient_eq_ok_iff (data rest : Bytes) (r : Record) :
    (Kind.sid.parse .lenient data = .ok (r, rest) ↔
      ∃ s : Sid, r = .sid s ∧ s.WellFormed ∧ data = s.encode ++ rest) ∧
    (Kind.ace.parse .lenient data = .ok (r, rest) ↔
      ∃ a : Ace, r = .ace a ∧ a.WellFormed ∧ data = a.encode ++ rest) ∧
    (Kind.acl.parse .lenient data = .ok (r, rest) ↔
      ∃ a : Acl, r = .acl a ∧ a.WellFormed ∧ data = a.encode ++ rest) ∧
    (Kind.header.parse .lenient data = .ok (r, rest) ↔
      ∃ h : Header, r = .header h ∧ data = h.encode ++ rest) := by
  refine ⟨?_, ?_, ?_, parse_eq_ok_iff_of_reads rfl Header.reads_decoder data rest r⟩
  · rw [parse_eq_ok_iff_of_reads rfl Sid.reads_decoder]
    simp only [Sid.wellFormed, true_and]
  · rw [parse_eq_ok_iff_of_reads rfl Ace.reads_decoder]
    simp only [Ace.wellFormed, true_and]
  · rw [parse_eq_ok_iff_of_reads rfl Acl.reads_decoder]
    simp only [Acl.wellFormed, true_and]

end SecurityDescriptor

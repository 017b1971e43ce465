import SecurityDescriptor.Proofs.RecordGrammar

/-!
# The layout of a descriptor

Which byte strings are which descriptors.  The header stands at the start, and each part
with a non-zero offset stands at that offset, whatever lies around, between or on top of it:

    the bytes are `sd`  ↔  sd.header.encode <+: blob ∧ each part is `PlacedAt` its offset

No control bit, revision, order, alignment or size field has a say.  The parts themselves are
well-formed, as every SID and every ACL is (`Sid.wellFormed`, `Acl.wellFormed`).
-/

namespace SecurityDescriptor

namespace Decoder

variable {α : Type}

/-- On bytes of its own a decoder gives what these start with. -/
theorem Reads.within_eq_ok_iff {d : Decoder α} {enc : α → Bytes} (hd : Reads d enc)
    {data : Bytes} {c : Cursor} {a : α} :
    (within data d c).result = .ok a ↔ enc a <+: data := by
  show (d ⟨0, data⟩).result = .ok a ↔ _
  constructor
  · intro h
    obtain ⟨w, rest, rfl, hs, -⟩ := (hd 0 data a _).1 ⟨h, rfl⟩
    exact ⟨rest, hs.symm⟩
  · rintro ⟨rest, rfl⟩
    exact ((hd 0 _ a _).2 ⟨_, rest, rfl, rfl, rfl⟩).1

end Decoder

open Decoder

theorem Sid.encode_ne_nil (s : Sid) : s.encode ≠ [] := by
  simp [encode, Bytes.ofUInt8]

theorem Acl.encode_ne_nil (a : Acl) : a.encode ≠ [] := by
  simp [encode, AclHeader.encode, Bytes.ofUInt8]

/-- A part is absent exactly if its offset is zero, and if it is there, its wire form stands
at the offset. -/
def PlacedAt {α : Type} (blob : Bytes) (offset : UInt32) (enc : α → Bytes)
    (part : Option α) : Prop :=
  (part = none ↔ offset = 0) ∧ ∀ x ∈ part, enc x <+: blob.drop offset.toNat

@[simp] theorem placedAt_none {α : Type} {blob : Bytes} {offset : UInt32} {enc : α → Bytes} :
    PlacedAt blob offset enc none ↔ offset = 0 := by
  simp [PlacedAt]

@[simp] theorem placedAt_some {α : Type} {blob : Bytes} {offset : UInt32} {enc : α → Bytes}
    {a : α} :
    PlacedAt blob offset enc (some a) ↔ offset ≠ 0 ∧ enc a <+: blob.drop offset.toNat := by
  simp [PlacedAt]

/-- A part takes at least one byte, so its offset lies inside the data. -/
theorem PlacedAt.lt_length {α : Type} {blob : Bytes} {offset : UInt32} {enc : α → Bytes} {a : α}
    (h : PlacedAt blob offset enc (some a)) (hne : enc a ≠ []) : offset.toNat < blob.length := by
  obtain ⟨rest, hrest⟩ := (placedAt_some.1 h).2
  have hlen := congrArg List.length hrest
  have hpos := List.length_pos_iff.2 hne
  rw [List.length_append, List.length_drop] at hlen
  omega

namespace Descriptor

/-- Following an offset gives what is placed there. -/
theorem follow_eq_ok_iff {α : Type} {d : Decoder α} {enc : α → Bytes} (hd : Reads d enc)
    (hne : ∀ a, enc a ≠ []) {blob : Bytes} {part : Part} {offset : UInt32} {c : Cursor}
    {x : Option α} :
    (follow blob part offset d c).result = .ok x ↔ PlacedAt blob offset enc x := by
  unfold follow
  split
  · next h0 =>
    cases x <;> simp [h0]
  · next h0 =>
    split
    · next hlt =>
      rw [bind_eq_ok_iff]
      simp only [map_eq_ok_iff, hd.within_eq_ok_iff]
      cases x with
      | none => simp [h0]
      | some a => simp [h0, Decoder.report]
    · next hge =>
      constructor
      · intro h
        cases h
      · intro h
        cases x with
        | none => exact absurd (placedAt_none.1 h) h0
        | some a => exact absurd (h.lt_length (hne a)) hge

/-- The parts are decoded one after the other, and none moves where the next is looked for. -/
theorem ofBytes_lenient_eq_ok_iff {blob : Bytes} {c : Cursor} {sd : Descriptor} :
    (ofBytes .lenient blob c).result = .ok sd ↔
      sd.header.encode <+: blob ∧
      PlacedAt blob sd.header.offsetOwner Sid.encode sd.owner ∧
      PlacedAt blob sd.header.offsetGroup Sid.encode sd.group ∧
      PlacedAt blob sd.header.offsetSacl Acl.encode sd.sacl ∧
      PlacedAt blob sd.header.offsetDacl Acl.encode sd.dacl := by
  simp only [ofBytes, bind_eq_ok_iff, Header.reads_decoder.within_eq_ok_iff,
    follow_eq_ok_iff Sid.reads_decoder Sid.encode_ne_nil,
    follow_eq_ok_iff Acl.reads_decoder Acl.encode_ne_nil, pure_apply, Except.ok.injEq]
  constructor
  · rintro ⟨h, hh, owner, ho, group, hg, sacl, hs, dacl, hd, rfl⟩
    exact ⟨hh, ho, hg, hs, hd⟩
  · rintro ⟨hh, ho, hg, hs, hd⟩
    exact ⟨sd.header, hh, sd.owner, ho, sd.group, hg, sd.sacl, hs, sd.dacl, hd, rfl⟩

end Descriptor

/-- **The layout of a descriptor.**  Lenient decoding of a byte string gives a descriptor
exactly if the header stands at the start and every part is placed at its offset. -/
theorem Kind.ofBytes_descriptor_eq_ok_iff (blob : Bytes) (sd : Descriptor) :
    (Kind.descriptor.ofBytes .lenient blob).result = .ok (.descriptor sd) ↔
      sd.header.encode <+: blob ∧
      PlacedAt blob sd.header.offsetOwner Sid.encode sd.owner ∧
      PlacedAt blob sd.header.offsetGroup Sid.encode sd.group ∧
      PlacedAt blob sd.header.offsetSacl Acl.encode sd.sacl ∧
      PlacedAt blob sd.header.offsetDacl Acl.encode sd.dacl := by
  rw [← Descriptor.ofBytes_lenient_eq_ok_iff (c := (Cursor.start blob).finish)]
  show ((Record.descriptor <$> Descriptor.decoder .lenient) (Cursor.start blob)).result = _ ↔ _
  rw [map_eq_ok_iff, Descriptor.decoder_apply]
  constructor
  · rintro ⟨sd', h, hsd⟩
    cases hsd
    exact h
  · intro h
    exact ⟨sd, h, rfl⟩

end SecurityDescriptor

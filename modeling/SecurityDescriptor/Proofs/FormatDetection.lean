import SecurityDescriptor.Proofs.DescriptorLayout
import SecurityDescriptor.Proofs.Encodings

/-!
# When the automatic format reads base64

Whatever writes bytes in hexadecimal or base64 is read back in its own format.  The automatic
format tries hexadecimal first, and so takes base64 for what it is unless each of its characters
is a hexadecimal digit by chance: then the bytes that are read are others, and fewer.

    decodeLine .auto (Base64.text bs) = .ok bs ↔ bs = [] ∨ ∃ c ∈ Base64.encode bs, c ∉ Hex.digits
                                                                      (decodeLine_encodings)

A digit in the place of six bits leaves few values for them, which the second character of a
descriptor's base64 never has.
-/

namespace SecurityDescriptor

namespace Base64

/-- The text of a byte string, in the standard padded form. -/
def text (bs : Bytes) : String := String.ofList (encode bs)

/-- The six bits whose letter looks like a hexadecimal digit. -/
theorem letter_mem_digits_iff : ∀ n, n < 64 →
    (letter n ∈ Hex.digits ↔ n < 6 ∨ (26 ≤ n ∧ n < 32) ∨ (52 ≤ n ∧ n < 62)) := by
  decide +kernel

/-- Padding is no digit. -/
theorem exists_not_mem_digits_of_padded {bs : Bytes} (h : bs.length % 3 ≠ 0) :
    ∃ c ∈ encode bs, c ∉ Hex.digits := by
  refine ⟨'=', List.mem_append_right _ ?_, by decide +kernel⟩
  exact List.mem_replicate.2 ⟨by omega, rfl⟩

/-- The second character holds the low bits of the first byte and the high bits of the second. -/
theorem exists_not_mem_digits_of_header {y : UInt8} (hy : y < 0xA0) (rest : Bytes) :
    ∃ c ∈ encode (1 :: y :: rest), c ∉ Hex.digits := by
  have hy : y.toNat < 160 := hy
  have hmem : 16 + y.toNat / 16 ∈ unpack (1 :: y :: rest) := by
    cases rest <;> simp [unpack]
  have hdigit := letter_mem_digits_iff (16 + y.toNat / 16) (by omega)
  refine ⟨_, List.mem_append_left _ (List.mem_map_of_mem hmem), fun hc => ?_⟩
  have := hdigit.1 hc
  omega

/-- Without padding, four characters stand for three bytes. -/
theorem length_encode_of_digits {bs : Bytes} (h : ∀ c ∈ encode bs, c ∈ Hex.digits) :
    3 * (encode bs).length = 4 * bs.length ∧ (encode bs).length % 2 = 0 := by
  have h3 : bs.length % 3 = 0 := by
    by_contra h3
    obtain ⟨c, hc, hdigit⟩ := exists_not_mem_digits_of_padded h3
    exact hdigit (h c hc)
  rw [encode, List.length_append, List.length_map, length_unpack, padding, List.length_replicate]
  omega

end Base64

/-! ## The automatic format -/

theorem filter_encode (bs : Bytes) :
    (Base64.encode bs).filter (· != ' ') = Base64.encode bs := by
  rw [List.filter_eq_self]
  intro c hc
  rw [bne_iff_ne]
  rintro rfl
  exact absurd (Base64.kind_of_mem_encode hc).1 (by decide)

/-- Hexadecimal digits of base64 stand without gaps. -/
theorem mem_digits_of_readHex_encode {bs bs' : Bytes} (h : readHex (Base64.encode bs) = .ok bs')
    {c : Char} (hc : c ∈ Base64.encode bs) : c ∈ Hex.digits := by
  rw [readHex_eq_ok_iff, filter_encode] at h
  refine (h.isGap_or_mem_digits hc).resolve_left fun hgap => ?_
  have hblank := Hex.isBlank_of_isGap hgap
  rw [(Base64.kind_of_mem_encode hc).1] at hblank
  cases hblank

theorem decodeLine_auto_of_readHex {bs bs' : Bytes} (h : readHex (Base64.encode bs) = .ok bs') :
    decodeLine .auto (Base64.text bs) = .ok bs' := by
  unfold decodeLine Base64.text
  simp only [String.toList_ofList, strip_encode, h]

/-- A character that is no digit keeps the base64 from being taken for hexadecimal. -/
theorem decodeLine_auto_of_exists {bs : Bytes} (h : ∃ c ∈ Base64.encode bs, c ∉ Hex.digits) :
    decodeLine .auto (Base64.text bs) = .ok bs := by
  obtain ⟨c, hc, hdigit⟩ := h
  cases hread : readHex (Base64.encode bs) with
  | ok bs' => exact absurd (mem_digits_of_readHex_encode hread hc) hdigit
  | error e =>
    unfold decodeLine Base64.text
    simp only [String.toList_ofList, strip_encode, hread, readBase64_encode]

/-- Base64 of digits only is taken for hexadecimal, and gives two bytes for three. -/
theorem decodeLine_auto_of_forall {bs : Bytes} (hne : bs ≠ [])
    (h : ∀ c ∈ Base64.encode bs, c ∈ Hex.digits) :
    ∃ bs', decodeLine .auto (Base64.text bs) = .ok bs' ∧ bs' ≠ bs ∧
      3 * bs'.length = 2 * bs.length := by
  obtain ⟨hlen, heven⟩ := Base64.length_encode_of_digits h
  obtain ⟨bs', hspells, hlen'⟩ := Hex.exists_spells h heven
  have hread : readHex (Base64.encode bs) = .ok bs' := by
    rw [readHex_eq_ok_iff, filter_encode]
    exact hspells
  have hpos := List.length_pos_of_ne_nil hne
  refine ⟨bs', decodeLine_auto_of_readHex hread, ?_, by omega⟩
  rintro rfl
  omega

theorem decodeLine_auto_eq_ok_iff {bs : Bytes} :
    decodeLine .auto (Base64.text bs) = .ok bs ↔
      bs = [] ∨ ∃ c ∈ Base64.encode bs, c ∉ Hex.digits := by
  constructor
  · intro h
    by_contra hdigits
    obtain ⟨hne, hall⟩ := not_or.1 hdigits
    obtain ⟨bs', hread, hother, -⟩ := decodeLine_auto_of_forall hne (by simpa using hall)
    rw [h] at hread
    exact hother (Except.ok.inj hread).symm
  · rintro (rfl | h)
    · rfl
    · exact decodeLine_auto_of_exists h

/-! ## Descriptors -/

/-- In every mode the header is read from the first bytes. -/
theorem Descriptor.header_prefix {mode : Mode} {blob : Bytes} {sd : Descriptor}
    (h : (Kind.descriptor.ofBytes mode blob).result = .ok (.descriptor sd)) :
    sd.header.encode <+: blob := by
  have hrun : ((Record.descriptor <$> Descriptor.decoder mode) (.start blob)).result =
      .ok (.descriptor sd) := h
  rw [Decoder.map_eq_ok_iff] at hrun
  obtain ⟨sd', hsd', heq⟩ := hrun
  cases heq
  rw [Descriptor.decoder_apply] at hsd'
  simp only [Descriptor.ofBytes, Decoder.bind_eq_ok_iff] at hsd'
  obtain ⟨header, hheader, owner, -, group, -, sacl, -, dacl, -, hpure⟩ := hsd'
  rw [Decoder.pure_apply] at hpure
  obtain rfl := Except.ok.inj hpure
  exact Header.reads_decoder.within_eq_ok_iff.1 hheader

/-- **Formats and the automatic one.**  Bytes are read back from their hexadecimal digits, in
either format that takes them, and from their base64.  The automatic format reads them back from
base64 if there are none or some character is no hexadecimal digit, and else gives other bytes,
two for three.  It reads back all bytes that need padding, and all descriptors of revision 1
whose second byte is zero. -/
theorem decodeLine_encodings (bs : Bytes) :
    decodeLine .auto (Hex.text bs) = .ok bs ∧ decodeLine .hex (Hex.text bs) = .ok bs ∧
    decodeLine .base64 (Base64.text bs) = .ok bs ∧
    (decodeLine .auto (Base64.text bs) = .ok bs ↔
      bs = [] ∨ ∃ c ∈ Base64.encode bs, c ∉ Hex.digits) ∧
    (¬(bs = [] ∨ ∃ c ∈ Base64.encode bs, c ∉ Hex.digits) →
      ∃ bs', decodeLine .auto (Base64.text bs) = .ok bs' ∧ bs' ≠ bs ∧
        3 * bs'.length = 2 * bs.length) ∧
    (bs.length % 3 ≠ 0 → decodeLine .auto (Base64.text bs) = .ok bs) ∧
    (∀ y rest, bs = 1 :: y :: rest → y < 0xA0 →
      decodeLine .auto (Base64.text bs) = .ok bs) ∧
    (∀ mode sd, (Kind.descriptor.ofBytes mode bs).result = .ok (.descriptor sd) →
      sd.header.revision = 1 → sd.header.sbz1 = 0 →
      decodeLine .auto (Base64.text bs) = .ok bs) := by
  have hhex := spells_filter_ofBytes bs
  refine ⟨decodeLine_of_written_alone hhex, decodeLine_of_written_alone hhex,
    decodeLine_of_written_alone rfl, decodeLine_auto_eq_ok_iff, ?_, ?_, ?_, ?_⟩
  · intro h
    obtain ⟨hne, hall⟩ := not_or.1 h
    exact decodeLine_auto_of_forall hne (by simpa using hall)
  · intro h
    exact decodeLine_auto_of_exists (Base64.exists_not_mem_digits_of_padded h)
  · rintro y rest rfl hy
    exact decodeLine_auto_of_exists (Base64.exists_not_mem_digits_of_header hy rest)
  · intro mode sd h hrevision hsbz
    obtain ⟨rest, hrest⟩ := Descriptor.header_prefix h
    rw [Header.encode, hrevision, hsbz] at hrest
    rw [← hrest]
    exact decodeLine_auto_of_exists (Base64.exists_not_mem_digits_of_header (by decide) _)

/-- The shadow: three bytes whose base64 is `ABCD`. -/
example : decodeLine .auto (Base64.text [0x00, 0x10, 0x83]) = .ok [0xab, 0xcd] := rfl

end SecurityDescriptor

import SecurityDescriptor.Proofs.Encodings
import SecurityDescriptor.Proofs.IdentifierReading

/-!
# Reading the text of a GUID

The first three fields of a GUID are little-endian numbers, whose digits stand in the text from the
most significant one on; the other eight bytes stand there as they are.  So the digits, hyphens
apart, are those of the bytes with the first three fields reversed (`Guid.textOrder`), and a reader
that splits the text at its hyphens gets back the 16 bytes of the wire form:

    Guid.WrittenAs data w → Guid.readText? w = some (data.take 16)     (Guid.readText?_of_writtenAs)

So the texts of two decoded GUIDs are equal exactly where the GUIDs are, and where their first 16
bytes are (`Kind.ofBytes_guid_text`).
-/

namespace SecurityDescriptor

/-! ## Numerals -/

namespace Numeral

/-- The digits of lower-case hexadecimal. -/
def lowerDigits : List Char := "0123456789abcdef".toList

/-- `w` writes `n` in so many lower-case hexadecimal digits. -/
structure IsLowerHex (width n : Nat) (w : List Char) : Prop where
  length : w.length = width
  digits : ∀ c ∈ w, c ∈ lowerDigits
  read : read? 16 w = some n

/-- `w` writes bytes in lower-case hexadecimal digits, two a byte. -/
structure IsLowerHexBytes (bs : Bytes) (w : List Char) : Prop where
  digits : ∀ c ∈ w, c ∈ lowerDigits
  spells : Hex.Spells bs w

variable {n : Nat} {bs : Bytes} {w : List Char}

theorem digitChar_mem_lowerDigits : ∀ d, d < 16 → Nat.digitChar d ∈ lowerDigits := by
  decide +kernel

theorem mem_lowerDigits_of_mem_fixed {k : Nat} {c : Char} (h : c ∈ Hex.fixed k n) :
    c ∈ lowerDigits := by
  obtain ⟨d, hd, rfl⟩ := Hex.mem_fixed h
  exact digitChar_mem_lowerDigits d hd

theorem isLowerHex_fixed {k : Nat} (hk : 0 < k) (hn : n < 16 ^ k) :
    IsLowerHex k n (Hex.fixed k n) where
  length := Hex.length_fixed k n
  digits _ hc := mem_lowerDigits_of_mem_fixed hc
  read := by
    have hne : Hex.fixed k n ≠ [] := by
      apply List.ne_nil_of_length_pos
      rwa [Hex.length_fixed]
    rw [read?, if_neg hne, ← List.map_id (Hex.fixed k n)]
    exact foldlM_push?_map_fixed (fun d hd => (Hex.digitValue?_digitChar d hd).1) hn

theorem isLowerHexBytes_ofBytes (bs : Bytes) : IsLowerHexBytes bs (Hex.ofBytes bs) where
  digits := by
    intro c hc
    obtain ⟨b, -, hc⟩ := List.mem_flatMap.1 hc
    exact mem_lowerDigits_of_mem_fixed hc
  spells := Hex.spells_ofBytes bs

theorem IsLowerHex.hyphen_not_mem {k : Nat} (h : IsLowerHex k n w) : '-' ∉ w :=
  fun hc => absurd (h.digits _ hc) (by decide)

theorem IsLowerHexBytes.hyphen_not_mem (h : IsLowerHexBytes bs w) : '-' ∉ w :=
  fun hc => absurd (h.digits _ hc) (by decide)

theorem IsLowerHexBytes.read (h : IsLowerHexBytes bs w) : Hex.read w = .ok bs :=
  Hex.read_eq_ok_iff.2 h.spells

end Numeral

namespace Hex

theorem ofBytes_concat (xs ys : Bytes) : ofBytes (xs ++ ys) = ofBytes xs ++ ofBytes ys :=
  List.flatMap_append

/-- The digits of a little-endian number are those of its bytes from the last one on. -/
theorem fixed_toNatLE (bs : Bytes) : fixed (2 * bs.length) bs.toNatLE = ofBytes bs.reverse := by
  induction bs with
  | nil => rfl
  | cons b bs ih =>
    have hb := b.toNat_lt
    have hdiv : (b.toNat + 256 * Bytes.toNatLE bs) / 16 / 16 = Bytes.toNatLE bs := by omega
    have hhigh : (b.toNat + 256 * Bytes.toNatLE bs) / 16 % 16 = b.toNat / 16 := by omega
    have hlow : (b.toNat + 256 * Bytes.toNatLE bs) % 16 = b.toNat % 16 := by omega
    have hlast : ofBytes [b] = [Nat.digitChar (b.toNat / 16), Nat.digitChar (b.toNat % 16)] := by
      simp [ofBytes, fixed_two]
    rw [List.length_cons, Nat.mul_succ, Bytes.toNatLE, fixed, fixed, hdiv, hhigh, hlow, ih,
      List.reverse_cons, ofBytes_concat, hlast, List.append_assoc, List.singleton_append]

end Hex

open Numeral

namespace Guid

/-! ## Texts -/

/-- `w` writes the GUID in the first 16 bytes of `data`: three little-endian numbers of 4, 2 and 2
bytes with all their digits, and then 2 and 6 bytes one by one, with hyphens between. -/
def WrittenAs (data : Bytes) (w : List Char) : Prop :=
  ∃ a b c d e, w = a ++ '-' :: b ++ '-' :: c ++ '-' :: d ++ '-' :: e ∧
    IsLowerHex 8 (Bytes.toNatLE (data.take 4)) a ∧
    IsLowerHex 4 (Bytes.toNatLE ((data.drop 4).take 2)) b ∧
    IsLowerHex 4 (Bytes.toNatLE ((data.drop 6).take 2)) c ∧
    IsLowerHexBytes ((data.drop 8).take 2) d ∧ IsLowerHexBytes ((data.drop 10).take 6) e

/-- The first 16 bytes in the order of the text: those of the three numbers from the last one
on. -/
def textOrder (data : Bytes) : Bytes :=
  (data.take 4).reverse ++ ((data.drop 4).take 2).reverse ++ ((data.drop 6).take 2).reverse ++
    (data.drop 8).take 8

/-- Puts hyphens behind the 8th, 12th, 16th and 20th digit. -/
def hyphenate (ds : List Char) : List Char :=
  ds.take 8 ++ '-' :: (ds.drop 8).take 4 ++ '-' :: (ds.drop 12).take 4 ++
    '-' :: (ds.drop 16).take 4 ++ '-' :: ds.drop 20

/-- `w` is the canonical text of 16 bytes: their 32 digits with hyphens between. -/
def CanonicalText (bs : Bytes) (w : List Char) : Prop :=
  ∃ ds, ds.length = 32 ∧ IsLowerHexBytes bs ds ∧ w = hyphenate ds

/-- Splits a text at its hyphens and reads the parts: three numbers, which are written back as
little-endian fields, and the other bytes. -/
def readText? (w : List Char) : Option Bytes :=
  match w.splitOn '-' with
  | [a, b, c, d, e] => do
    let data1 ← read? 16 a
    let data2 ← read? 16 b
    let data3 ← read? 16 c
    let front ← (Hex.read d).toOption
    let back ← (Hex.read e).toOption
    pure (Bytes.ofNatLE 4 data1 ++ Bytes.ofNatLE 2 data2 ++ Bytes.ofNatLE 2 data3 ++ front ++ back)
  | _ => none

variable {data : Bytes} {g : Guid}

theorem take_sixteen (data : Bytes) :
    data.take 4 ++ (data.drop 4).take 2 ++ (data.drop 6).take 2 ++ (data.drop 8).take 2 ++
      (data.drop 10).take 6 = data.take 16 := by
  rw [← List.take_add, ← List.take_add, ← List.take_add, ← List.take_add]

theorem length_drop_take (hlen : 16 ≤ data.length) {i n : Nat} (hin : i + n ≤ 16) :
    ((data.drop i).take n).length = n := by
  rw [List.length_take, List.length_drop]
  omega

/-- The parts of a text are the bytes that it writes. -/
theorem readText?_of_writtenAs (hlen : 16 ≤ data.length) {w : List Char} (h : WrittenAs data w) :
    readText? w = some (data.take 16) := by
  obtain ⟨a, b, c, d, e, rfl, ha, hb, hc, hd, he⟩ := h
  have hparts : (a ++ '-' :: b ++ '-' :: c ++ '-' :: d ++ '-' :: e).splitOn '-' =
      [a, b, c, d, e] := by
    have hjoin : a ++ '-' :: b ++ '-' :: c ++ '-' :: d ++ '-' :: e =
        ['-'].intercalate [a, b, c, d, e] := by
      rw [← Sid.append_flatMap_hyphen]
      simp
    rw [hjoin]
    apply List.splitOn_intercalate
    · intro v hv
      simp only [List.mem_cons, List.not_mem_nil, or_false] at hv
      rcases hv with rfl | rfl | rfl | rfl | rfl
      · exact ha.hyphen_not_mem
      · exact hb.hyphen_not_mem
      · exact hc.hyphen_not_mem
      · exact hd.hyphen_not_mem
      · exact he.hyphen_not_mem
    · exact List.cons_ne_nil _ _
  have hfield (i n : Nat) (hin : i + n ≤ 16) :
      Bytes.ofNatLE n (Bytes.toNatLE ((data.drop i).take n)) = (data.drop i).take n := by
    have hback := Bytes.ofNatLE_toNatLE ((data.drop i).take n)
    rwa [length_drop_take hlen hin] at hback
  have hfirst := hfield 0 4 (by decide)
  rw [List.drop_zero] at hfirst
  rw [readText?, hparts]
  simp [ha.read, hb.read, hc.read, hd.read, he.read, Except.toOption, hfirst,
    hfield 4 2 (by decide), hfield 6 2 (by decide), ← take_sixteen]

theorem hyphenate_append {a b c d : List Char} (ha : a.length = 8) (hb : b.length = 4)
    (hc : c.length = 4) (hd : d.length = 4) (e : List Char) :
    hyphenate (a ++ b ++ c ++ d ++ e) = a ++ '-' :: b ++ '-' :: c ++ '-' :: d ++ '-' :: e := by
  rw [hyphenate]
  -- a part that lies in front of where a group begins is dropped as a whole
  simp (disch := omega) [List.drop_append, List.drop_of_length_le, ha, hb, hc]

/-! ## Decoded GUIDs -/

theorem encode_of_ofBytes {mode : Mode}
    (h : (Kind.guid.ofBytes mode data).result = .ok (.guid g)) :
    16 ≤ data.length ∧ g.encode = data.take 16 := by
  have hrun : ((Record.guid <$> Guid.decoder) (.start data)).result = .ok (.guid g) := h
  obtain ⟨_, hg, heq⟩ := Decoder.map_eq_ok_iff.1 hrun
  cases heq
  have hprefix := (reads_decoder.of_ok hg).1
  have hle := hprefix.length_le
  rw [length_encode] at hle
  rw [List.prefix_iff_eq_take, length_encode] at hprefix
  exact ⟨hle, hprefix⟩

theorem exists_ofBytes_iff (mode : Mode) (data : Bytes) :
    (∃ g, (Kind.guid.ofBytes mode data).result = .ok (.guid g)) ↔ 16 ≤ data.length := by
  constructor
  · rintro ⟨g, hg⟩
    exact (encode_of_ofBytes hg).1
  · intro hlen
    have hrun := Decoder.readBlock_of_le (c := .start data) (some "GUID") hlen
    refine ⟨ofBlock ⟨data.take 16, List.length_take_of_le hlen⟩, ?_⟩
    rw [Kind.ofBytes, Kind.decoder, decoder, Decoder.map_apply, Decoder.map_apply, hrun]
    rfl

/-- The fields of a GUID from its wire form. -/
theorem fields_of_encode (hlen : 16 ≤ data.length) (h : g.encode = data.take 16) :
    g.data1.toNat = Bytes.toNatLE (data.take 4) ∧
    g.data2.toNat = Bytes.toNatLE ((data.drop 4).take 2) ∧
    g.data3.toNat = Bytes.toNatLE ((data.drop 6).take 2) ∧
    g.data4.bytes = (data.drop 8).take 8 := by
  have hsplit : data.take 4 ++ (data.drop 4).take 2 ++ (data.drop 6).take 2 ++
      (data.drop 8).take 8 = data.take 16 := by
    rw [← List.take_add, ← List.take_add, ← List.take_add]
  rw [← hsplit, encode] at h
  obtain ⟨h, h4⟩ := List.append_inj' h (by simp [g.data4.length_bytes]; omega)
  obtain ⟨h, h3⟩ := List.append_inj' h (by simp; omega)
  obtain ⟨h1, h2⟩ := List.append_inj' h (by simp; omega)
  have hfield32 (x : UInt32) : x.toNat = (Bytes.ofUInt32 x).toNatLE :=
    ((Bytes.eq_ofNatLE_iff x.toNat_lt (Bytes.ofUInt32 x)).1 rfl).2.symm
  have hfield16 (x : UInt16) : x.toNat = (Bytes.ofUInt16 x).toNatLE :=
    ((Bytes.eq_ofNatLE_iff x.toNat_lt (Bytes.ofUInt16 x)).1 rfl).2.symm
  rw [hfield32, hfield16, hfield16, h1, h2, h3]
  exact ⟨rfl, rfl, rfl, h4⟩

theorem toList_text (g : Guid) :
    g.text.toList = Hex.fixed 8 g.data1.toNat ++ '-' :: Hex.fixed 4 g.data2.toNat ++
      '-' :: Hex.fixed 4 g.data3.toNat ++ '-' :: Hex.ofBytes (g.data4.bytes.take 2) ++
      '-' :: Hex.ofBytes (g.data4.bytes.drop 2) := by
  simp [text, Hex.text]

theorem writtenAs_text (hlen : 16 ≤ data.length) (h : g.encode = data.take 16) :
    WrittenAs data g.text.toList := by
  obtain ⟨h1, h2, h3, h4⟩ := fields_of_encode hlen h
  have hfront : g.data4.bytes.take 2 = (data.drop 8).take 2 := by
    rw [h4, List.take_take]
    rfl
  have hback : g.data4.bytes.drop 2 = (data.drop 10).take 6 := by
    rw [h4, List.drop_take, List.drop_drop]
  refine ⟨_, _, _, _, _, g.toList_text, ?_, ?_, ?_, ?_, ?_⟩
  · rw [← h1]
    exact isLowerHex_fixed (by decide) g.data1.toNat_lt
  · rw [← h2]
    exact isLowerHex_fixed (by decide) g.data2.toNat_lt
  · rw [← h3]
    exact isLowerHex_fixed (by decide) g.data3.toNat_lt
  · rw [← hfront]
    exact isLowerHexBytes_ofBytes _
  · rw [← hback]
    exact isLowerHexBytes_ofBytes _

/-- The hyphens apart, the digits are those of the bytes in the order of the text. -/
theorem canonicalText_text (hlen : 16 ≤ data.length) (h : g.encode = data.take 16) :
    CanonicalText (textOrder data) g.text.toList := by
  obtain ⟨h1, h2, h3, h4⟩ := fields_of_encode hlen h
  have hdigits (i n : Nat) (hin : i + n ≤ 16) :
      Hex.ofBytes ((data.drop i).take n).reverse =
        Hex.fixed (2 * n) (Bytes.toNatLE ((data.drop i).take n)) := by
    rw [← Hex.fixed_toNatLE, length_drop_take hlen hin]
  have hfirst := hdigits 0 4 (by decide)
  rw [List.drop_zero] at hfirst
  have hall : Hex.ofBytes (textOrder data) = Hex.fixed 8 g.data1.toNat ++
      Hex.fixed 4 g.data2.toNat ++ Hex.fixed 4 g.data3.toNat ++
      Hex.ofBytes (g.data4.bytes.take 2) ++ Hex.ofBytes (g.data4.bytes.drop 2) := by
    rw [List.append_assoc, ← Hex.ofBytes_concat, List.take_append_drop, h1, h2, h3, h4, textOrder,
      Hex.ofBytes_concat, Hex.ofBytes_concat, Hex.ofBytes_concat, hfirst,
      hdigits 4 2 (by decide), hdigits 6 2 (by decide)]
  have hlength : (Hex.ofBytes (g.data4.bytes.take 2)).length = 4 := by
    rw [Hex.length_ofBytes, List.length_take, g.data4.length_bytes]
    rfl
  refine ⟨Hex.ofBytes (textOrder data), ?_, isLowerHexBytes_ofBytes _, ?_⟩
  · rw [Hex.length_ofBytes]
    simp [textOrder]
    omega
  · rw [toList_text, hall, hyphenate_append (Hex.length_fixed ..) (Hex.length_fixed ..)
      (Hex.length_fixed ..) hlength]

/-- Two GUIDs are compared by their wire forms, and have an answer. -/
theorem same?_eq_some_iff {g h : Guid} :
    (Record.guid g).same? (.guid h) = some true ↔ g = h := by
  rw [Record.same?, Option.some_inj, beq_iff_eq, ext_encode]

end Guid

/-- **The text of a GUID determines it.**  A byte string gives a GUID exactly if it has 16 bytes,
and these are what it is written back as.  Its text has 36 characters: three little-endian numbers
with all their digits and then the other bytes, which is the canonical text of the 16 bytes with
the three numbers reversed.  A reader that splits it at the hyphens gets back the bytes.  For two
decoded GUIDs it is one question whether their texts are equal, whether they compare as equal, and
whether their first 16 bytes are the same. -/
theorem Kind.ofBytes_guid_text (mode mode' : Mode) (data data' : Bytes) :
    ((∃ g, (Kind.guid.ofBytes mode data).result = .ok (.guid g)) ↔ 16 ≤ data.length) ∧
    ∀ g, (Kind.guid.ofBytes mode data).result = .ok (.guid g) →
      g.encode = data.take 16 ∧
      g.text.length = 36 ∧
      Guid.WrittenAs data g.text.toList ∧
      Guid.CanonicalText (Guid.textOrder data) g.text.toList ∧
      Guid.readText? g.text.toList = some (data.take 16) ∧
      ∀ h, (Kind.guid.ofBytes mode' data').result = .ok (.guid h) →
        (g.text = h.text ↔ (Record.guid g).same? (.guid h) = some true) ∧
        ((Record.guid g).same? (.guid h) = some true ↔ data.take 16 = data'.take 16) := by
  refine ⟨Guid.exists_ofBytes_iff mode data, fun g hg => ?_⟩
  obtain ⟨hlen, hencode⟩ := Guid.encode_of_ofBytes hg
  have hwritten := Guid.writtenAs_text hlen hencode
  refine ⟨hencode, ?_, hwritten, Guid.canonicalText_text hlen hencode,
    Guid.readText?_of_writtenAs hlen hwritten, fun h hh => ⟨?_, ?_⟩⟩
  · rw [← String.length_toList, Guid.toList_text]
    simp [Hex.length_ofBytes, g.data4.length_bytes]
  · rw [Guid.same?_eq_some_iff, Guid.text_inj]
  · rw [Guid.same?_eq_some_iff, ← hencode, ← (Guid.encode_of_ofBytes hh).2, Guid.ext_encode]

example : (Kind.guid.ofBytes .strict [0xba, 0x7a, 0x96, 0xbf, 0xe6, 0x0d, 0xd0, 0x11,
      0xa2, 0x85, 0x00, 0xaa, 0x00, 0x30, 0x49, 0xe2]).result.map Record.text? =
    .ok (some "bf967aba-0de6-11d0-a285-00aa003049e2") := by
  decide +kernel

end SecurityDescriptor

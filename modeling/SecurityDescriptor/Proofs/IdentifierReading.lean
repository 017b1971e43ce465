import SecurityDescriptor.Proofs.Equality
import SecurityDescriptor.Proofs.IdentifierText

/-!
# Reading the text of an identifier

The text of a SID is canonical: its numbers are written in decimal without leading zeros, and an
authority from `2 ^ 32` on as `0x` and twelve upper-case digits.  A reader that splits such a text
at its hyphens and reads the parts gets back all that there is to a SID:

    s.WrittenAs w → readText? w = some (revision, authority bytes, sub-authorities)
                                                                (Sid.readText?_of_writtenAs)

So the texts of two decoded SIDs are equal exactly where the SIDs are, and where the bytes that
they were read from are (`Kind.ofBytes_sid_text`).
-/

namespace SecurityDescriptor

/-! ## Numerals -/

namespace Numeral

/-- A number with one digit more behind it. -/
def push? (base n : Nat) (c : Char) : Option Nat :=
  match Hex.digitValue? c with
  | some d => if d < base then some (base * n + d) else none
  | none => none

/-- The number that digits make, the first one the most significant.  No digits make no number. -/
def read? (base : Nat) (w : List Char) : Option Nat :=
  if w = [] then none else w.foldlM (push? base) 0

/-- `w` writes `n` in decimal: in digits, and without a zero in front of others. -/
structure IsDecimal (n : Nat) (w : List Char) : Prop where
  digits : ∀ c ∈ w, c.isDigit = true
  read : read? 10 w = some n
  head : w.head? = some '0' → w = ['0']

/-- The digits of upper-case hexadecimal. -/
def upperDigits : List Char := "0123456789ABCDEF".toList

/-- `w` writes `n` in so many upper-case hexadecimal digits. -/
structure IsUpperHex (width n : Nat) (w : List Char) : Prop where
  length : w.length = width
  digits : ∀ c ∈ w, c ∈ upperDigits
  read : read? 16 w = some n

variable {base n d : Nat} {c : Char} {w : List Char}

theorem push?_of_digit (hc : Hex.digitValue? c = some d) (hd : d < base) :
    push? base n c = some (base * n + d) := by
  rw [push?, hc]
  exact if_pos hd

/-- Behind digits that make `n` one digit more makes the next number. -/
theorem foldlM_push?_concat (hw : w.foldlM (push? base) 0 = some n)
    (hc : Hex.digitValue? c = some d) (hd : d < base) :
    (w ++ [c]).foldlM (push? base) 0 = some (base * n + d) := by
  rw [List.foldlM_append, hw]
  show push? base n c >>= pure = _
  rw [push?_of_digit hc hd]
  rfl

theorem foldlM_push?_toDigits (h1 : 1 < base) (h16 : base ≤ 16) (n : Nat) :
    (Nat.toDigits base n).foldlM (push? base) 0 = some n := by
  induction n using Nat.strongRecOn with
  | ind n ih =>
    rw [Nat.toDigits_eq_if h1]
    split
    · next hlt =>
      have h : [Nat.digitChar n].foldlM (push? base) 0 = some (base * 0 + n) :=
        foldlM_push?_concat (w := []) rfl (Hex.digitValue?_digitChar n (by omega)).1 hlt
      rwa [Nat.mul_zero, Nat.zero_add] at h
    · next hge =>
      have hmod := Nat.mod_lt n (Nat.zero_lt_of_lt h1)
      have h := foldlM_push?_concat (ih (n / base) (Nat.div_lt_self (by omega) h1))
        (Hex.digitValue?_digitChar (n % base) (by omega)).1 hmod
      rwa [Nat.div_add_mod] at h

theorem digitValue?_toUpper : ∀ d, d < 16 →
    Hex.digitValue? (Nat.digitChar d).toUpper = some d ∧
      (Nat.digitChar d).toUpper ∈ upperDigits := by
  decide +kernel

/-- All digits of a number make it again, also if these are rewritten one by one. -/
theorem foldlM_push?_map_fixed {f : Char → Char}
    (hf : ∀ d, d < 16 → Hex.digitValue? (f (Nat.digitChar d)) = some d) {k : Nat}
    (hn : n < 16 ^ k) : ((Hex.fixed k n).map f).foldlM (push? 16) 0 = some n := by
  induction k generalizing n with
  | zero =>
    rw [Nat.pow_zero] at hn
    obtain rfl : n = 0 := by omega
    rfl
  | succ k ih =>
    have hmod := Nat.mod_lt n (by decide : 0 < 16)
    have h := foldlM_push?_concat (ih (n := n / 16) (by rw [Nat.pow_succ] at hn; omega))
      (hf (n % 16) hmod) hmod
    rw [Nat.div_add_mod] at h
    rw [Hex.fixed, List.map_append]
    exact h

theorem foldlM_push?_fixedUpper {k : Nat} (hn : n < 16 ^ k) :
    (Hex.fixedUpper k n).foldlM (push? 16) 0 = some n :=
  foldlM_push?_map_fixed (fun d hd => (digitValue?_toUpper d hd).1) hn

/-- A zero is the first digit of no other number. -/
theorem toDigits_of_head? (n : Nat) (h : (Nat.toDigits 10 n).head? = some '0') :
    Nat.toDigits 10 n = ['0'] := by
  induction n using Nat.strongRecOn with
  | ind n ih =>
    rw [Nat.toDigits_eq_if (by decide)] at h ⊢
    split at h
    · next hlt =>
      rw [if_pos hlt, Option.some.inj h]
    · next hge =>
      -- the digits in front would be a single zero, and make no number but zero
      rw [List.head?_append_of_ne_nil _ Nat.toDigits_ne_nil] at h
      have hzero : (Nat.toDigits 10 (n / 10)).foldlM (push? 10) 0 = some (n / 10) :=
        foldlM_push?_toDigits (by decide) (by decide) _
      rw [ih (n / 10) (by omega) h] at hzero
      have : 0 = n / 10 := Option.some.inj hzero
      omega

theorem isDecimal_toString (n : Nat) : IsDecimal n (toString n).toList where
  digits _ hc := isDigit_of_mem_toString hc
  read := by
    rw [Nat.toString_eq_ofList_toDigits, String.toList_ofList, read?, if_neg Nat.toDigits_ne_nil]
    exact foldlM_push?_toDigits (by decide) (by decide) n
  head := by
    rw [Nat.toString_eq_ofList_toDigits, String.toList_ofList]
    exact toDigits_of_head? n

theorem isUpperHex_fixedUpper {k : Nat} (hk : 0 < k) (hn : n < 16 ^ k) :
    IsUpperHex k n (Hex.fixedUpper k n) where
  length := by rw [Hex.fixedUpper, List.length_map, Hex.length_fixed]
  digits := by
    intro c hc
    obtain ⟨c', hc', rfl⟩ := List.mem_map.1 hc
    obtain ⟨d, hd, rfl⟩ := Hex.mem_fixed hc'
    exact (digitValue?_toUpper d hd).2
  read := by
    have hne : Hex.fixedUpper k n ≠ [] := by
      apply List.ne_nil_of_length_pos
      rwa [Hex.fixedUpper, List.length_map, Hex.length_fixed]
    rw [read?, if_neg hne]
    exact foldlM_push?_fixedUpper hn

theorem IsDecimal.not_mem (h : IsDecimal n w) (hc : c.isDigit = false) : c ∉ w := by
  intro hmem
  rw [h.digits c hmem] at hc
  cases hc

theorem IsUpperHex.not_mem {k : Nat} (h : IsUpperHex k n w) (hc : c ∉ upperDigits) : c ∉ w :=
  fun hmem => hc (h.digits c hmem)

end Numeral

open Numeral

/-! ## Authorities -/

namespace Authority

/-- `w` writes the number of an authority: in decimal below `2 ^ 32`, and else as `0x` and twelve
upper-case digits. -/
def Writes (n : Nat) (w : List Char) : Prop :=
  if n < 2 ^ 32 then IsDecimal n w else ∃ ds, w = '0' :: 'x' :: ds ∧ IsUpperHex 12 n ds

/-- The number of an authority, read from either form. -/
def readText? : List Char → Option Nat
  | '0' :: 'x' :: ds => read? 16 ds
  | w => read? 10 w

variable {n : Nat} {w : List Char}

theorem writes_text (a : Authority) : Writes a.toNat a.text.toList := by
  by_cases h : a.toNat < 2 ^ 32
  · have htext : a.text = toString a.toNat := if_pos h
    rw [Writes, if_pos h, htext]
    exact isDecimal_toString a.toNat
  · have htext : a.text = "0x" ++ String.ofList (Hex.fixedUpper 12 a.toNat) := if_neg h
    have htoList : a.text.toList = '0' :: 'x' :: Hex.fixedUpper 12 a.toNat := by simp [htext]
    rw [Writes, if_neg h]
    exact ⟨_, htoList, isUpperHex_fixedUpper (by decide) a.toNat_lt⟩

theorem Writes.readText?_eq (h : Writes n w) : readText? w = some n := by
  unfold Writes at h
  split at h
  · unfold readText?
    split
    · next ds => exact absurd (by simp) (h.not_mem (c := 'x') (by decide))
    · exact h.read
  · obtain ⟨ds, rfl, hds⟩ := h
    exact hds.read

theorem Writes.not_mem (h : Writes n w) : '-' ∉ w := by
  unfold Writes at h
  split at h
  · exact h.not_mem (by decide)
  · obtain ⟨ds, rfl, hds⟩ := h
    simpa using hds.not_mem (c := '-') (by decide)

/-- The bytes of an authority from its number. -/
theorem reverse_ofNatLE_toNat (a : Authority) :
    (Bytes.ofNatLE 6 a.toNat).reverse = a.value.bytes := by
  have h := Bytes.ofNatLE_toNatLE a.value.bytes.reverse
  rw [List.length_reverse, a.value.length_bytes] at h
  rw [toNat, Bytes.toNatBE, h, List.reverse_reverse]

end Authority

/-! ## Identifiers -/

namespace Sid

/-- `w` writes an identifier: `S`, the revision, the authority and each sub-authority in order,
with a hyphen in front of all but the first. -/
def WrittenAs (s : Sid) (w : List Char) : Prop :=
  ∃ revision authority subs,
    w = 'S' :: '-' :: revision ++ '-' :: authority ++ subs.flatMap ('-' :: ·) ∧
    IsDecimal s.revision.toNat revision ∧ Authority.Writes s.authority.toNat authority ∧
    List.Forall₂ (fun n v => IsDecimal (UInt32.toNat n) v) s.subAuthorities subs

/-- Splits a text at its hyphens and reads the parts: the revision, the bytes of the authority and
the sub-authorities. -/
def readText? (w : List Char) : Option (Nat × Bytes × List Nat) :=
  match w.splitOn '-' with
  | ['S'] :: revision :: authority :: subs => do
    let r ← read? 10 revision
    let a ← Authority.readText? authority
    let ns ← subs.mapM (read? 10)
    pure (r, (Bytes.ofNatLE 6 a).reverse, ns)
  | _ => none

theorem writtenAs_text (s : Sid) : s.WrittenAs s.text.toList := by
  refine ⟨_, _, s.subAuthorities.map fun n => (toString n.toNat).toList, ?_,
    isDecimal_toString _, s.authority.writes_text, ?_⟩
  · simp [text, String.toList_join, List.flatMap_map]
  · rw [List.forall₂_map_right_iff, List.forall₂_same]
    exact fun n _ => isDecimal_toString _

theorem not_mem_of_forall₂ {ns : List UInt32} {ws : List (List Char)}
    (h : List.Forall₂ (fun n v => IsDecimal (UInt32.toNat n) v) ns ws) :
    ∀ v ∈ ws, '-' ∉ v := by
  induction h with
  | nil => exact fun v hv => absurd hv List.not_mem_nil
  | cons hw _ ih =>
    rw [List.forall_mem_cons]
    exact ⟨hw.not_mem (by decide), ih⟩

theorem mapM_read? {ns : List UInt32} {ws : List (List Char)}
    (h : List.Forall₂ (fun n v => IsDecimal (UInt32.toNat n) v) ns ws) :
    ws.mapM (read? 10) = some (ns.map UInt32.toNat) := by
  induction h with
  | nil => rfl
  | cons hw _ ih =>
    rw [List.mapM_cons, hw.read, ih]
    rfl

/-- The parts of a text are the numbers that it writes. -/
theorem readText?_of_writtenAs {s : Sid} {w : List Char} (h : s.WrittenAs w) :
    readText? w = some (s.revision.toNat, s.authority.value.bytes,
      s.subAuthorities.map UInt32.toNat) := by
  obtain ⟨revision, authority, subs, rfl, hrevision, hauthority, hsubs⟩ := h
  have hparts :
      ('S' :: '-' :: revision ++ '-' :: authority ++ subs.flatMap ('-' :: ·)).splitOn '-' =
        ['S'] :: revision :: authority :: subs := by
    have hjoin : 'S' :: '-' :: revision ++ '-' :: authority ++ subs.flatMap ('-' :: ·) =
        ['-'].intercalate (['S'] :: revision :: authority :: subs) := by
      rw [← append_flatMap_hyphen]
      simp
    rw [hjoin]
    apply List.splitOn_intercalate
    · intro v hv
      simp only [List.mem_cons] at hv
      rcases hv with rfl | rfl | rfl | hv
      · decide
      · exact hrevision.not_mem (by decide)
      · exact hauthority.not_mem
      · exact not_mem_of_forall₂ hsubs v hv
    · exact List.cons_ne_nil _ _
  rw [readText?, hparts]
  simp [hrevision.read, hauthority.readText?_eq, mapM_read? hsubs,
    Authority.reverse_ofNatLE_toNat]

/-- Two identifiers are compared as wholes, and have an answer. -/
theorem same?_eq_some_iff {s t : Sid} :
    (Record.sid s).same? (.sid t) = some true ↔ s = t := by
  rw [Record.same?_eq, if_pos ⟨rfl, by simp [Record.kind, Kind.valued]⟩, Option.some_inj,
    beq_iff_eq, Record.sid.injEq]

/-- A decode takes the count's number of sub-authorities behind 8 bytes. -/
theorem take_of_ofBytes {mode : Mode} {data : Bytes} {s : Sid}
    (h : (Kind.sid.ofBytes mode data).result = .ok (.sid s)) :
    (Kind.sid.ofBytes mode data).cursor.pos = 8 + 4 * s.subAuthorities.length ∧
    data.take (8 + 4 * s.subAuthorities.length) = s.encode := by
  have hrun : ((Record.sid <$> Sid.decoder) (.start data)).result = .ok (.sid s) := h
  obtain ⟨_, hs, heq⟩ := Decoder.map_eq_ok_iff.1 hrun
  cases heq
  rw [Kind.ofBytes, Kind.decoder, Decoder.map_apply]
  obtain ⟨-, hcursor⟩ := Sid.reads_decoder.of_ok hs
  have hpos : (Sid.decoder (.start data)).cursor.pos = 8 + 4 * s.subAuthorities.length := by
    rw [hcursor, ← Sid.length_encode]
    exact Nat.zero_add _
  refine ⟨hpos, ?_⟩
  rw [← hpos]
  exact Sid.reads_decoder.take_pos hs

end Sid

/-- **The text of a SID determines it.**  The text of a decoded SID is the canonical one, and a
reader that splits it at the hyphens gets back the revision, the authority's bytes and the
sub-authorities.  For two decoded SIDs it is one question whether their texts are equal, whether
they compare as equal, and whether the bytes that they were read from are the same. -/
theorem Kind.ofBytes_sid_text {mode mode' : Mode} {data data' : Bytes} {s t : Sid}
    (hs : (Kind.sid.ofBytes mode data).result = .ok (.sid s))
    (ht : (Kind.sid.ofBytes mode' data').result = .ok (.sid t)) :
    s.WrittenAs s.text.toList ∧
    Sid.readText? s.text.toList = some (s.revision.toNat, s.authority.value.bytes,
      s.subAuthorities.map UInt32.toNat) ∧
    (Kind.sid.ofBytes mode data).cursor.pos = 8 + 4 * s.subAuthorities.length ∧
    data.take (8 + 4 * s.subAuthorities.length) = s.encode ∧
    (s.text = t.text ↔ (Record.sid s).same? (.sid t) = some true) ∧
    ((Record.sid s).same? (.sid t) = some true ↔
      data.take (8 + 4 * s.subAuthorities.length) =
        data'.take (8 + 4 * t.subAuthorities.length)) := by
  obtain ⟨hpos, htake⟩ := Sid.take_of_ofBytes hs
  obtain ⟨-, htake'⟩ := Sid.take_of_ofBytes ht
  refine ⟨s.writtenAs_text, Sid.readText?_of_writtenAs s.writtenAs_text, hpos, htake, ?_, ?_⟩
  · rw [Sid.same?_eq_some_iff, Sid.text_inj]
  · rw [Sid.same?_eq_some_iff, htake, htake']
    exact ⟨congrArg _, Sid.reads_decoder.inj⟩

/-- Two authorities that differ in one bit, on the two sides of `2 ^ 32`. -/
theorem Kind.ofBytes_sid_text_sides :
    ∃ s t, (Kind.sid.ofBytes .lenient [1, 1, 0, 0, 0, 0, 0, 5, 32, 2, 0, 0]).result =
        .ok (.sid s) ∧
      (Kind.sid.ofBytes .lenient [1, 1, 0, 1, 0, 0, 0, 5, 32, 2, 0, 0, 9]).result =
        .ok (.sid t) ∧
      s.text = "S-1-5-544" ∧ t.text = "S-1-0x000100000005-544" ∧
      Sid.readText? t.text.toList = some (1, [0, 1, 0, 0, 0, 5], [544]) ∧
      (Record.sid t).same? (.sid s) ≠ some true := by
  let s : Sid := ⟨1, ⟨⟨[0, 0, 0, 0, 0, 5], rfl⟩⟩, [544], by decide⟩
  let t : Sid := ⟨1, ⟨⟨[0, 1, 0, 0, 0, 5], rfl⟩⟩, [544], by decide⟩
  have hs : (Kind.sid.ofBytes .lenient [1, 1, 0, 0, 0, 0, 0, 5, 32, 2, 0, 0]).result =
      .ok (.sid s) := rfl
  have ht : (Kind.sid.ofBytes .lenient [1, 1, 0, 1, 0, 0, 0, 5, 32, 2, 0, 0, 9]).result =
      .ok (.sid t) := rfl
  obtain ⟨-, hread, -, -, -, hsame⟩ := ofBytes_sid_text ht hs
  refine ⟨s, t, hs, ht, by decide +kernel, by decide +kernel, hread, ?_⟩
  rw [Ne, hsame]
  decide

end SecurityDescriptor

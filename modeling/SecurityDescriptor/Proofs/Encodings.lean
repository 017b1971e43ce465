import Mathlib.Data.List.DropRight
import SecurityDescriptor.Input

/-!
# How a byte string may be written

A byte string is written in hexadecimal with two digits a byte, of either case and with gaps
between the pairs, or in base64.  The reader of hexadecimal digits takes the spellings of a byte
string and no other text, and a record line is read in its format with any blanks around it.

    readPairs i cs = .ok bs ↔ Spells bs cs                                  (readPairs_eq_ok_iff)
    Written format bs w → decodeLine format (pre ++ w ++ post) = .ok bs     (decodeLine_of_written)
-/

namespace SecurityDescriptor

/-! ## Blanks -/

namespace Text

/-- A text of blanks only. -/
def Blank (cs : List Char) : Prop := ∀ c ∈ cs, isBlank c = true

instance (cs : List Char) : Decidable (Blank cs) :=
  decidable_of_iff (cs.all isBlank = true) List.all_eq_true

theorem blank_nil : Blank [] := fun _ h => absurd h List.not_mem_nil

theorem Blank.append {cs ds : List Char} (hc : Blank cs) (hd : Blank ds) : Blank (cs ++ ds) :=
  fun c h => (List.mem_append.1 h).elim (hc c) (hd c)

section Strip

variable {p : Char → Bool}

theorem rdropWhile_append_of_pos {ys : List Char} (h : ∀ c ∈ ys, p c = true) (xs : List Char) :
    (xs ++ ys).rdropWhile p = xs.rdropWhile p := by
  rw [List.rdropWhile, List.reverse_append, List.dropWhile_append_of_pos (by simpa using h)]
  rfl

theorem dropWhile_filter {q : Char → Bool} (h : ∀ c, q c = false → p c = true) (cs : List Char) :
    (cs.filter q).dropWhile p = (cs.dropWhile p).filter q := by
  have hor : (fun c => !q c || p c) = p := by
    funext c
    cases hq : q c with
    | true => rfl
    | false => exact (h c hq).symm
  rw [List.dropWhile_filter, hor]

theorem rdropWhile_filter {q : Char → Bool} (h : ∀ c, q c = false → p c = true) (cs : List Char) :
    (cs.filter q).rdropWhile p = (cs.rdropWhile p).filter q := by
  rw [List.rdropWhile, List.rdropWhile, ← List.filter_reverse, dropWhile_filter h,
    List.filter_reverse]

theorem rdropWhile_cons (c : Char) (cs : List Char) :
    (c :: cs).rdropWhile p =
      if p c = true ∧ cs.rdropWhile p = [] then [] else c :: cs.rdropWhile p := by
  rw [List.rdropWhile, List.reverse_cons, List.dropWhile_append, List.rdropWhile]
  cases hrest : cs.reverse.dropWhile p with
  | nil => cases hc : p c <;> simp [hc]
  | cons d ds => simp

theorem rdropWhile_cons_of_neg {c : Char} (h : p c = false) (cs : List Char) :
    (c :: cs).rdropWhile p = c :: cs.rdropWhile p := by
  rw [rdropWhile_cons, if_neg (by simp [h])]

theorem strip_eq (cs : List Char) : strip cs = (cs.dropWhile isBlank).rdropWhile isBlank := rfl

/-- Blanks around a text do not matter. -/
theorem strip_surround {pre post : List Char} (hpre : Blank pre) (hpost : Blank post)
    (w : List Char) : strip (pre ++ w ++ post) = strip w := by
  rw [strip_eq, strip_eq, List.append_assoc, List.dropWhile_append_of_pos hpre,
    List.dropWhile_append]
  split
  · next he =>
    rw [List.isEmpty_iff.1 he, List.dropWhile_eq_nil_iff.2 hpost]
  · rw [rdropWhile_append_of_pos hpost]

theorem strip_filter {q : Char → Bool} (h : ∀ c, q c = false → isBlank c = true)
    (cs : List Char) : strip (cs.filter q) = (strip cs).filter q := by
  rw [strip_eq, strip_eq, dropWhile_filter h, rdropWhile_filter h]

theorem strip_cons_of_neg {c : Char} (h : isBlank c = false) (cs : List Char) :
    strip (c :: cs) = c :: cs.rdropWhile isBlank := by
  rw [strip_eq, List.dropWhile_cons_of_neg (by rw [h]; decide), rdropWhile_cons_of_neg h]

/-- A text without blanks stays whole. -/
theorem strip_eq_self {cs : List Char} (h : ∀ c ∈ cs, isBlank c = false) : strip cs = cs := by
  cases cs with
  | nil => rfl
  | cons c cs =>
    rw [strip_cons_of_neg (h c List.mem_cons_self), List.rdropWhile_eq_self_iff.2]
    intro hne
    rw [h _ (List.mem_cons_of_mem c (List.getLast_mem hne))]
    decide

theorem strip_eq_nil_of_blank {cs : List Char} (h : Blank cs) : strip cs = [] := by
  rw [strip_eq, List.dropWhile_eq_nil_iff.2 h]
  rfl

/-- A text with a character that is no blank begins with one when it is stripped. -/
theorem strip_eq_cons {cs : List Char} {c : Char} (hc : c ∈ cs) (h : isBlank c = false) :
    ∃ d rest, d ∈ cs ∧ strip cs = d :: rest := by
  induction cs with
  | nil => cases hc
  | cons d cs ih =>
    cases hd : isBlank d with
    | false => exact ⟨d, _, List.mem_cons_self, strip_cons_of_neg hd cs⟩
    | true =>
      have hmem : c ∈ cs := (List.mem_cons.1 hc).resolve_left fun he => by simp [he, hd] at h
      obtain ⟨d', rest, hd', hstrip⟩ := ih hmem
      refine ⟨d', rest, List.mem_cons_of_mem _ hd', ?_⟩
      rw [← hstrip, strip_eq, List.dropWhile_cons_of_pos hd, strip_eq]

end Strip

end Text

/-! ## Hexadecimal digits -/

namespace Hex

/-- The digits of both cases. -/
def digits : List Char := "0123456789abcdefABCDEF".toList

theorem digitValue?_ascii : ∀ n, n < 128 →
    ((digitValue? (Char.ofNat n)).isSome = true ↔ Char.ofNat n ∈ digits) ∧
      ∀ v, v < 16 → (digitValue? (Char.ofNat n) = some v ↔
        (Char.ofNat n).toLower = Nat.digitChar v) := by
  decide +kernel

section Digits

variable {c : Char} (h : c ∈ digits)

include h

theorem isAscii_of_mem_digits : isAscii c = true := by
  have hall : digits.all isAscii = true := by decide +kernel
  exact List.all_eq_true.1 hall c h

theorem not_isGap_of_mem_digits : isGap c = false := by
  have hall : digits.all (fun c => !isGap c) = true := by decide +kernel
  simpa using List.all_eq_true.1 hall c h

theorem not_isBlank_of_mem_digits : Text.isBlank c = false := by
  have hall : digits.all (fun c => !Text.isBlank c) = true := by decide +kernel
  simpa using List.all_eq_true.1 hall c h

end Digits

theorem lt_of_digitValue? {c : Char} {v : Nat} (h : digitValue? c = some v) :
    v < 16 ∧ c.toNat < 128 := by
  unfold digitValue? at h
  split at h
  · next hc =>
    have h1 : 48 ≤ c.toNat := hc.1
    have h2 : c.toNat ≤ 57 := hc.2
    cases h
    omega
  · split at h
    · next hc =>
      have h1 : 97 ≤ c.toNat := hc.1
      have h2 : c.toNat ≤ 102 := hc.2
      cases h
      omega
    · split at h
      · next hc =>
        have h1 : 65 ≤ c.toNat := hc.1
        have h2 : c.toNat ≤ 70 := hc.2
        cases h
        omega
      · cases h

theorem ascii_of_toLower {c : Char} {v : Nat} (hv : v < 16) (h : c.toLower = Nat.digitChar v) :
    c.toNat < 128 := by
  unfold Char.toLower at h
  split at h
  · next hc =>
    have h2 : c.toNat ≤ 90 := hc.2
    omega
  · have := (digitValue?_digitChar v hv).2.2
    rw [← h] at this
    simpa [isAscii] using this

theorem digitValue?_eq_some_iff {c : Char} {v : Nat} :
    digitValue? c = some v ↔ v < 16 ∧ c.toLower = Nat.digitChar v := by
  constructor
  · intro h
    obtain ⟨hv, hc⟩ := lt_of_digitValue? h
    have key := ((digitValue?_ascii c.toNat hc).2 v hv).1
    rw [Char.ofNat_toNat] at key
    exact ⟨hv, key h⟩
  · rintro ⟨hv, h⟩
    have key := ((digitValue?_ascii c.toNat (ascii_of_toLower hv h)).2 v hv).2
    rw [Char.ofNat_toNat] at key
    exact key h

theorem digitValue?_isSome_iff {c : Char} : (digitValue? c).isSome = true ↔ c ∈ digits := by
  have key (hc : c.toNat < 128) := (digitValue?_ascii c.toNat hc).1
  simp only [Char.ofNat_toNat] at key
  constructor
  · intro h
    obtain ⟨v, hv⟩ := Option.isSome_iff_exists.1 h
    exact (key (lt_of_digitValue? hv).2).1 h
  · intro h
    exact (key (by simpa [isAscii] using isAscii_of_mem_digits h)).2 h

theorem mem_digits_of_toLower {c : Char} {v : Nat} (hv : v < 16) (h : c.toLower = Nat.digitChar v) :
    c ∈ digits :=
  digitValue?_isSome_iff.1 (by rw [digitValue?_eq_some_iff.2 ⟨hv, h⟩]; rfl)

/-! ## Spellings -/

/-- A text writes each byte as two digits of either case, the high one first.  Gaps stand
anywhere but inside a pair. -/
inductive Spells : Bytes → List Char → Prop where
  | nil : Spells [] []
  | gap {c : Char} {bs : Bytes} {cs : List Char} :
      isGap c = true → Spells bs cs → Spells bs (c :: cs)
  | pair {b : UInt8} {c d : Char} {bs : Bytes} {cs : List Char} :
      c.toLower = Nat.digitChar (b.toNat / 16) → d.toLower = Nat.digitChar (b.toNat % 16) →
      Spells bs cs → Spells (b :: bs) (c :: d :: cs)

theorem pairByte_eq_ok_iff {c d : Char} {b : UInt8} :
    pairByte c d = .ok b ↔
      c.toLower = Nat.digitChar (b.toNat / 16) ∧ d.toLower = Nat.digitChar (b.toNat % 16) := by
  have hb := b.toNat_lt
  have hhi : digitValue? c = some (b.toNat / 16) ↔ c.toLower = Nat.digitChar (b.toNat / 16) := by
    rw [digitValue?_eq_some_iff]
    exact and_iff_right (by omega)
  have hlo : digitValue? d = some (b.toNat % 16) ↔ d.toLower = Nat.digitChar (b.toNat % 16) := by
    rw [digitValue?_eq_some_iff]
    exact and_iff_right (by omega)
  rw [← hhi, ← hlo]
  constructor
  · intro h
    unfold pairByte at h
    split at h
    · next hi lo hc hd =>
      obtain rfl := Except.ok.inj h
      have h1 := (lt_of_digitValue? hc).1
      have h2 := (lt_of_digitValue? hd).1
      have hn : (UInt8.ofNat (16 * hi + lo)).toNat = 16 * hi + lo := by
        rw [UInt8.toNat_ofNat']
        omega
      rw [hc, hd, hn]
      exact ⟨congrArg some (by omega), congrArg some (by omega)⟩
    · cases h
    · cases h
  · rintro ⟨hc, hd⟩
    rw [pairByte, hc, hd]
    exact congrArg Except.ok (UInt8.toNat.inj (by rw [UInt8.toNat_ofNat']; omega))

theorem mem_digits_high {b : UInt8} {c : Char} (h : c.toLower = Nat.digitChar (b.toNat / 16)) :
    c ∈ digits :=
  mem_digits_of_toLower (by have := b.toNat_lt; omega) h

theorem mem_digits_low {b : UInt8} {c : Char} (h : c.toLower = Nat.digitChar (b.toNat % 16)) :
    c ∈ digits :=
  mem_digits_of_toLower (by omega) h

theorem spells_nil_iff {bs : Bytes} : Spells bs [] ↔ bs = [] := by
  constructor
  · rintro ⟨⟩
    rfl
  · rintro rfl
    exact .nil

/-- A gap spells nothing. -/
theorem spells_gap_iff {c : Char} (hc : isGap c = true) {bs : Bytes} {cs : List Char} :
    Spells bs (c :: cs) ↔ Spells bs cs := by
  refine ⟨fun h => ?_, .gap hc⟩
  cases h with
  | gap _ h => exact h
  | pair hhi hlo h =>
    rw [not_isGap_of_mem_digits (mem_digits_high hhi)] at hc
    cases hc

/-- A text that begins with no gap begins with a pair of digits. -/
theorem spells_pair_iff {c : Char} (hc : isGap c = false) {bs : Bytes} {cs : List Char} :
    Spells bs (c :: cs) ↔
      ∃ b bs' d cs', bs = b :: bs' ∧ cs = d :: cs' ∧ pairByte c d = .ok b ∧ Spells bs' cs' := by
  constructor
  · intro h
    cases h with
    | gap hgap _ =>
      rw [hc] at hgap
      cases hgap
    | pair hhi hlo h => exact ⟨_, _, _, _, rfl, rfl, pairByte_eq_ok_iff.2 ⟨hhi, hlo⟩, h⟩
  · rintro ⟨b, bs', d, cs', rfl, rfl, hpair, h⟩
    obtain ⟨hhi, hlo⟩ := pairByte_eq_ok_iff.1 hpair
    exact .pair hhi hlo h

/-- The reader of digit pairs takes the spellings of a byte string and no other text. -/
theorem readPairs_eq_ok_iff {i : Nat} {bs : Bytes} {cs : List Char} :
    readPairs i cs = .ok bs ↔ Spells bs cs := by
  induction i, cs using readPairs.induct generalizing bs with
  | case1 =>
    rw [readPairs, spells_nil_iff]
    exact ⟨fun h => (Except.ok.inj h).symm, fun h => h ▸ rfl⟩
  | case2 i c hc =>
    rw [readPairs, if_pos hc, spells_gap_iff hc, spells_nil_iff]
    exact ⟨fun h => (Except.ok.inj h).symm, fun h => h ▸ rfl⟩
  | case3 i c hc =>
    rw [readPairs, if_neg hc, spells_pair_iff (by simpa using hc)]
    simp
  | case4 i c d cs hc ih => rw [readPairs, if_pos hc, ih, spells_gap_iff hc]
  | case5 i c d cs hc k hpair =>
    rw [readPairs, if_neg hc, hpair, spells_pair_iff (by simpa using hc)]
    constructor
    · rintro ⟨⟩
    · rintro ⟨b, bs', d', cs', -, hcs, hok, -⟩
      cases hcs
      rw [hpair] at hok
      cases hok
  | case6 i c d cs hc b hpair ih =>
    rw [readPairs, if_neg hc, hpair, spells_pair_iff (by simpa using hc)]
    constructor
    · intro h
      cases hread : readPairs (i + 2) cs with
      | error k =>
        rw [hread] at h
        cases h
      | ok bs' =>
        rw [hread] at h
        exact ⟨b, bs', d, cs, (Except.ok.inj h).symm, rfl, hpair, ih.1 hread⟩
    · rintro ⟨b', bs', d', cs', rfl, hcs, hok, h⟩
      cases hcs
      rw [hpair] at hok
      cases hok
      show (readPairs (i + 2) cs).map (b :: ·) = _
      rw [ih.2 h]
      rfl

theorem isAscii_of_isGap {c : Char} (h : isGap c = true) : isAscii c = true := by
  simp only [isGap, Bool.or_eq_true, beq_iff_eq, Bool.and_eq_true, decide_eq_true_eq] at h
  rcases h with rfl | ⟨-, h⟩
  · rfl
  · exact decide_eq_true (by omega)

theorem isBlank_of_isGap {c : Char} (h : isGap c = true) : Text.isBlank c = true := by
  simp only [isGap, Bool.or_eq_true, beq_iff_eq, Bool.and_eq_true, decide_eq_true_eq] at h
  rcases h with rfl | ⟨h1, h2⟩
  · rfl
  · simp [Text.isBlank, h1, h2]

namespace Spells

variable {bs : Bytes} {cs : List Char}

theorem isGap_or_mem_digits (h : Spells bs cs) {c : Char} (hc : c ∈ cs) :
    isGap c = true ∨ c ∈ digits := by
  induction h with
  | nil => cases hc
  | gap hgap _ ih =>
    rcases List.mem_cons.1 hc with rfl | hc
    · exact .inl hgap
    · exact ih hc
  | pair hhi hlo _ ih =>
    rcases List.mem_cons.1 hc with rfl | hc
    · exact .inr (mem_digits_high hhi)
    · rcases List.mem_cons.1 hc with rfl | hc
      · exact .inr (mem_digits_low hlo)
      · exact ih hc

theorem exists_mem_digits (h : Spells bs cs) (hne : bs ≠ []) : ∃ c ∈ cs, c ∈ digits := by
  induction h with
  | nil => exact absurd rfl hne
  | gap _ _ ih =>
    obtain ⟨c, hc, hdigit⟩ := ih hne
    exact ⟨c, List.mem_cons_of_mem _ hc, hdigit⟩
  | pair hhi _ _ _ => exact ⟨_, List.mem_cons_self, mem_digits_high hhi⟩

theorem isAscii (h : Spells bs cs) {c : Char} (hc : c ∈ cs) : isAscii c = true := by
  rcases h.isGap_or_mem_digits hc with hgap | hdigit
  · exact isAscii_of_isGap hgap
  · exact isAscii_of_mem_digits hdigit

theorem dropWhile (h : Spells bs cs) : Spells bs (cs.dropWhile Text.isBlank) := by
  induction h with
  | nil => exact .nil
  | gap hgap _ ih =>
    rw [List.dropWhile_cons_of_pos (isBlank_of_isGap hgap)]
    exact ih
  | pair hhi hlo h _ =>
    rw [List.dropWhile_cons_of_neg (by simp [not_isBlank_of_mem_digits (mem_digits_high hhi)])]
    exact .pair hhi hlo h

theorem rdropWhile (h : Spells bs cs) : Spells bs (cs.rdropWhile Text.isBlank) := by
  induction h with
  | nil => exact .nil
  | gap hgap _ ih =>
    rw [Text.rdropWhile_cons]
    split
    · next hrest =>
      rw [hrest.2] at ih
      exact ih
    · exact .gap hgap ih
  | pair hhi hlo _ ih =>
    rw [Text.rdropWhile_cons_of_neg (not_isBlank_of_mem_digits (mem_digits_high hhi)),
      Text.rdropWhile_cons_of_neg (not_isBlank_of_mem_digits (mem_digits_low hlo))]
    exact .pair hhi hlo ih

/-- Blanks in front and behind may be left away. -/
theorem strip (h : Spells bs cs) : Spells bs (Text.strip cs) := h.dropWhile.rdropWhile

/-- Gaps may be left away. -/
theorem filter (h : Spells bs cs) {q : Char → Bool} (hq : ∀ c, q c = false → isGap c = true) :
    Spells bs (cs.filter q) := by
  have hdigit (c : Char) (hc : c ∈ digits) : q c = true := by
    cases hqc : q c with
    | true => rfl
    | false =>
      have hgap := hq c hqc
      rw [not_isGap_of_mem_digits hc] at hgap
      cases hgap
  induction h with
  | nil => exact .nil
  | @gap c _ _ hgap _ ih =>
    rw [List.filter_cons]
    split
    · exact .gap hgap ih
    · exact ih
  | pair hhi hlo _ ih =>
    rw [List.filter_cons_of_pos (hdigit _ (mem_digits_high hhi)),
      List.filter_cons_of_pos (hdigit _ (mem_digits_low hlo))]
    exact .pair hhi hlo ih

end Spells

theorem read_eq_ok_iff {bs : Bytes} {cs : List Char} : read cs = .ok bs ↔ Spells bs cs := by
  rw [← readPairs_eq_ok_iff (i := 0), read]
  split
  · next i hi =>
    constructor
    · rintro ⟨⟩
    · intro h
      have hnone : cs.findIdx? (!isAscii ·) = none := by
        rw [List.findIdx?_eq_none_iff]
        intro c hc
        rw [(readPairs_eq_ok_iff.1 h).isAscii hc]
        rfl
      rw [hnone] at hi
      cases hi
  · rfl

/-- Digits spell bytes if there is an even number of them. -/
theorem exists_spells : ∀ {cs : List Char}, (∀ c ∈ cs, c ∈ digits) → cs.length % 2 = 0 →
    ∃ bs, Spells bs cs ∧ 2 * bs.length = cs.length
  | [], _, _ => ⟨[], .nil, rfl⟩
  | [_], _, h => by cases h
  | c :: d :: cs, h, heven => by
    obtain ⟨hi, hhi⟩ := Option.isSome_iff_exists.1 (digitValue?_isSome_iff.2 (h c (by simp)))
    obtain ⟨lo, hlo⟩ := Option.isSome_iff_exists.1 (digitValue?_isSome_iff.2 (h d (by simp)))
    have hpair : pairByte c d = .ok (UInt8.ofNat (16 * hi + lo)) := by rw [pairByte, hhi, hlo]
    obtain ⟨hc, hd⟩ := pairByte_eq_ok_iff.1 hpair
    have heven' : cs.length % 2 = 0 := by
      simp only [List.length_cons] at heven
      omega
    obtain ⟨bs, hbs, hlen⟩ := exists_spells (fun x hx => h x (by simp [hx])) heven'
    refine ⟨_ :: bs, .pair hc hd hbs, ?_⟩
    simp only [List.length_cons]
    omega

theorem spells_ofBytes (bs : Bytes) : Spells bs (ofBytes bs) :=
  readPairs_eq_ok_iff.1 (readPairs_ofBytes 0 bs)

end Hex

/-! ## Base64 -/

namespace Base64

theorem letter_kind : ∀ n, n < 64 → Text.isBlank (letter n) = false ∧ letter n ≠ '#' := by
  decide +kernel

theorem kind_of_mem_encode {bs : Bytes} {c : Char} (h : c ∈ encode bs) :
    Text.isBlank c = false ∧ c ≠ '#' := by
  rcases List.mem_append.1 h with h | h
  · obtain ⟨n, hn, rfl⟩ := List.mem_map.1 h
    exact letter_kind n (lt_of_mem_unpack hn)
  · rw [(List.mem_replicate.1 h).2]
    decide

theorem encode_ne_nil {bs : Bytes} (h : bs ≠ []) : encode bs ≠ [] := by
  intro hnil
  have hlen := length_unpack bs
  rw [List.map_eq_nil_iff.1 (List.append_eq_nil_iff.1 hnil).1] at hlen
  have hpos := List.length_pos_of_ne_nil h
  simp only [List.length_nil] at hlen
  omega

end Base64

/-! ## Record lines -/

/-- A text writes bytes in a format.  In hexadecimal, spaces may stand anywhere. -/
def Written (format : LineFormat) (bs : Bytes) (w : List Char) : Prop :=
  match format with
  | .auto | .hex => Hex.Spells bs (w.filter (· != ' '))
  | .base64 => w = Base64.encode bs

theorem spells_filter_ofBytes (bs : Bytes) :
    Hex.Spells bs ((Hex.ofBytes bs).filter (· != ' ')) := by
  apply (Hex.spells_ofBytes bs).filter
  intro c hc
  obtain rfl : c = ' ' := by simpa using hc
  rfl

theorem readHex_eq_ok_iff {bs : Bytes} {cs : List Char} :
    readHex cs = .ok bs ↔ Hex.Spells bs (cs.filter (· != ' ')) := by
  rw [← Hex.read_eq_ok_iff, readHex]
  cases Hex.read (cs.filter (· != ' ')) <;> simp [Except.mapError]

theorem readHex_strip_of_spells {bs : Bytes} {w : List Char}
    (h : Hex.Spells bs (w.filter (· != ' '))) : readHex (Text.strip w) = .ok bs := by
  have hblank : ∀ c, (c != ' ') = false → Text.isBlank c = true := by
    intro c hc
    obtain rfl : c = ' ' := by simpa using hc
    rfl
  rw [readHex_eq_ok_iff, ← Text.strip_filter hblank]
  exact h.strip

theorem readBase64_encode (bs : Bytes) : readBase64 (Base64.encode bs) = .ok bs := by
  rw [readBase64, Base64.decode_encode]
  rfl

theorem strip_encode (bs : Bytes) : Text.strip (Base64.encode bs) = Base64.encode bs :=
  Text.strip_eq_self fun _ hc => (Base64.kind_of_mem_encode hc).1

section Written

variable {format : LineFormat} {bs : Bytes} {pre w post : List Char}

/-- What was written in a format is read back in it, with any blanks around. -/
theorem decodeLine_of_written (hpre : Text.Blank pre) (hpost : Text.Blank post)
    (h : Written format bs w) : decodeLine format (String.ofList (pre ++ w ++ post)) = .ok bs := by
  unfold decodeLine
  rw [String.toList_ofList, Text.strip_surround hpre hpost]
  cases format with
  | auto => simp only [readHex_strip_of_spells h]
  | hex => exact readHex_strip_of_spells h
  | base64 =>
    obtain rfl : w = Base64.encode bs := h
    rw [strip_encode]
    exact readBase64_encode bs

theorem decodeLine_of_written_alone (h : Written format bs w) :
    decodeLine format (String.ofList w) = .ok bs := by
  have hread := decodeLine_of_written Text.blank_nil Text.blank_nil h
  rwa [List.nil_append, List.append_nil] at hread

theorem Written.spells_or_encode (h : Written format bs w) :
    Hex.Spells bs (w.filter (· != ' ')) ∨ w = Base64.encode bs := by
  cases format with
  | auto => exact .inl h
  | hex => exact .inl h
  | base64 => exact .inr h

theorem Written.hash_not_mem (h : Written format bs w) : '#' ∉ w := by
  intro hc
  rcases h.spells_or_encode with hspells | rfl
  · rcases hspells.isGap_or_mem_digits (List.mem_filter.2 ⟨hc, rfl⟩) with hgap | hdigit
    · cases hgap
    · exact absurd hdigit (by decide +kernel)
  · exact (Base64.kind_of_mem_encode hc).2 rfl

theorem Written.exists_not_isBlank (h : Written format bs w) (hne : bs ≠ []) :
    ∃ c ∈ w, Text.isBlank c = false := by
  rcases h.spells_or_encode with hspells | rfl
  · obtain ⟨c, hc, hdigit⟩ := hspells.exists_mem_digits hne
    exact ⟨c, (List.mem_filter.1 hc).1, Hex.not_isBlank_of_mem_digits hdigit⟩
  · obtain ⟨c, hc⟩ := List.exists_mem_of_ne_nil _ (Base64.encode_ne_nil hne)
    exact ⟨c, hc, (Base64.kind_of_mem_encode hc).1⟩

/-- A text that writes some bytes is neither blank nor a comment. -/
theorem carriesRecord_of_written (hpre : Text.Blank pre) (hpost : Text.Blank post)
    (h : Written format bs w) (hne : bs ≠ []) : carriesRecord (pre ++ w ++ post) = true := by
  obtain ⟨c, hc, hblank⟩ := h.exists_not_isBlank hne
  obtain ⟨d, rest, hd, hstrip⟩ := Text.strip_eq_cons hc hblank
  have hhash : d ≠ '#' := fun he => h.hash_not_mem (he ▸ hd)
  rw [carriesRecord, Text.strip_surround hpre hpost, hstrip]
  exact bne_iff_ne.2 hhash

end Written

end SecurityDescriptor

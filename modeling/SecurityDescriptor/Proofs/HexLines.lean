import SecurityDescriptor.Proofs.Encodings

/-!
# Lines of hexadecimal digits

A line is read in hexadecimal without the blanks at its ends and without its spaces
(`hexText`).  The texts that are read are the spellings of byte strings (`Hex.Spells`).  All other
texts fail, each at one position: that of the first character outside ASCII, or else of the first
one that continues no prefix of a text, the end standing for a missing digit (`Hex.FailsAt`).

    Hex.read cs = .ok bs   ↔ Spells bs cs                                   (Hex.read_eq_ok_iff)
    Hex.read cs = .error i ↔ FailsAt cs i                                (Hex.read_eq_error_iff)

The position is unique (`StopsAt.unique`), so the reader of pairs is followed in one direction
only: where it fails, it stops at such a position.
-/

namespace SecurityDescriptor

namespace Hex

/-! ## Texts and their prefixes -/

/-- A text of digit pairs. -/
def IsText (cs : List Char) : Prop := ∃ bs, Spells bs cs

/-- A beginning of some text. -/
def Viable (cs : List Char) : Prop := ∃ rest, IsText (cs ++ rest)

/-- The first `i` characters begin a text, but not with one more, or all do and the last one is
half a pair. -/
structure StopsAt (cs : List Char) (i : Nat) : Prop where
  le : i ≤ cs.length
  viable : Viable (cs.take i)
  stop : i < cs.length → ¬ Viable (cs.take (i + 1))
  half : i = cs.length → ∃ ds c, cs = ds ++ [c] ∧ IsText ds ∧ c ∈ digits

/-- The position at which a text is wrong. -/
inductive FailsAt (cs : List Char) (i : Nat) : Prop where
  | nonAscii {c : Char} (hi : cs[i]? = some c) (hc : isAscii c = false)
      (hfirst : ∀ d ∈ cs.take i, isAscii d = true)
  | stops (hall : ∀ c ∈ cs, isAscii c = true) (h : StopsAt cs i)

section Viable

variable {c d : Char} {cs ds : List Char}

theorem IsText.viable (h : IsText cs) : Viable cs := ⟨[], by rwa [List.append_nil]⟩

theorem Viable.of_prefix (h : Viable ds) (hle : cs <+: ds) : Viable cs := by
  obtain ⟨rest, hrest⟩ := h
  obtain ⟨mid, rfl⟩ := hle
  exact ⟨mid ++ rest, by rwa [← List.append_assoc]⟩

theorem viable_nil : Viable [] := IsText.viable ⟨[], .nil⟩

theorem isText_gap_iff (hc : isGap c = true) : IsText (c :: cs) ↔ IsText cs := by
  simp only [IsText, spells_gap_iff hc]

theorem isText_pair_iff {b : UInt8} (hc : isGap c = false) (hpair : pairByte c d = .ok b) :
    IsText (c :: d :: cs) ↔ IsText cs := by
  constructor
  · rintro ⟨bs, h⟩
    obtain ⟨_, bs', _, _, -, hcs, -, h⟩ := (spells_pair_iff hc).1 h
    cases hcs
    exact ⟨bs', h⟩
  · rintro ⟨bs, h⟩
    exact ⟨b :: bs, (spells_pair_iff hc).2 ⟨b, bs, d, cs, rfl, rfl, hpair, h⟩⟩

/-- Two digits make a pair. -/
theorem exists_pairByte (hc : c ∈ digits) (hd : d ∈ digits) : ∃ b, pairByte c d = .ok b := by
  obtain ⟨hi, hhi⟩ := Option.isSome_iff_exists.1 (digitValue?_isSome_iff.2 hc)
  obtain ⟨lo, hlo⟩ := Option.isSome_iff_exists.1 (digitValue?_isSome_iff.2 hd)
  exact ⟨_, by rw [pairByte, hhi, hlo]⟩

/-- A digit begins a pair. -/
theorem viable_digit (hc : c ∈ digits) : Viable [c] := by
  obtain ⟨b, hb⟩ := exists_pairByte hc (d := '0') (by decide)
  exact ⟨['0'], (isText_pair_iff (not_isGap_of_mem_digits hc) hb).2 ⟨[], .nil⟩⟩

/-- What is no gap has to be a digit. -/
theorem mem_digits_of_viable (hc : isGap c = false) (h : Viable (c :: cs)) : c ∈ digits := by
  obtain ⟨rest, bs, h⟩ := h
  obtain ⟨b, _, d, _, -, -, hpair, -⟩ := (spells_pair_iff hc).1 h
  exact mem_digits_high (pairByte_eq_ok_iff.1 hpair).1

/-- Behind a first digit there has to be a second one. -/
theorem mem_digits_of_viable_pair (hc : isGap c = false) (h : Viable (c :: d :: cs)) :
    d ∈ digits := by
  obtain ⟨rest, bs, h⟩ := h
  obtain ⟨b, _, _, _, -, hcs, hpair, -⟩ := (spells_pair_iff hc).1 h
  cases hcs
  exact mem_digits_low (pairByte_eq_ok_iff.1 hpair).2

/-- Half a pair behind a text makes no text. -/
theorem not_isText_half {bs : Bytes} (h : Spells bs ds) (hc : c ∈ digits) :
    ¬ IsText (ds ++ [c]) := by
  have hgap := not_isGap_of_mem_digits hc
  induction h with
  | nil =>
    rintro ⟨bs, h⟩
    obtain ⟨_, _, _, _, -, hcs, -⟩ := (spells_pair_iff hgap).1 h
    cases hcs
  | gap hg _ ih =>
    rw [List.cons_append, isText_gap_iff hg]
    exact ih
  | pair hhi hlo _ ih =>
    have hpair := pairByte_eq_ok_iff.2 ⟨hhi, hlo⟩
    rw [List.cons_append, List.cons_append,
      isText_pair_iff (not_isGap_of_mem_digits (mem_digits_high hhi)) hpair]
    exact ih

end Viable

/-! ## Where a text is wrong -/

namespace StopsAt

variable {cs : List Char} {i j : Nat}

/-- A text does not stop. -/
theorem not_isText (h : StopsAt cs i) : ¬ IsText cs := by
  intro htext
  rcases Nat.lt_or_ge i cs.length with hlt | hge
  · exact h.stop hlt (htext.viable.of_prefix (List.take_prefix ..))
  · obtain ⟨ds, c, rfl, ⟨bs, hds⟩, hc⟩ := h.half (Nat.le_antisymm h.le hge)
    exact not_isText_half hds hc htext

theorem le_of_stopsAt (hi : StopsAt cs i) (hj : StopsAt cs j) : j ≤ i := by
  rcases Nat.lt_or_ge i j with hlt | hge
  · have hle := hj.le
    have hprefix : cs.take (i + 1) <+: cs.take j := List.take_prefix_take_left hlt
    exact absurd (hj.viable.of_prefix hprefix) (hi.stop (by omega))
  · exact hge

/-- There is one position to stop at. -/
theorem unique (hi : StopsAt cs i) (hj : StopsAt cs j) : i = j :=
  Nat.le_antisymm (hj.le_of_stopsAt hi) (hi.le_of_stopsAt hj)

/-- A part in front that neither makes nor breaks a text moves the position. -/
theorem append (pre : List Char) (hpre : ∀ w, IsText (pre ++ w) ↔ IsText w) (h : StopsAt cs i) :
    StopsAt (pre ++ cs) (pre.length + i) := by
  have hviable (w : List Char) : Viable (pre ++ w) ↔ Viable w := by
    simp only [Viable, List.append_assoc, hpre]
  refine ⟨?_, ?_, ?_, ?_⟩
  · rw [List.length_append]
    exact Nat.add_le_add_left h.le _
  · rw [List.take_length_add_append, hviable]
    exact h.viable
  · intro hlt
    rw [List.length_append] at hlt
    rw [Nat.add_assoc, List.take_length_add_append, hviable]
    exact h.stop (by omega)
  · intro heq
    rw [List.length_append] at heq
    obtain ⟨ds, c, rfl, hds, hc⟩ := h.half (by omega)
    exact ⟨pre ++ ds, c, (List.append_assoc ..).symm, (hpre ds).2 hds, hc⟩

end StopsAt

section Stops

variable {c d : Char} {cs : List Char}

theorem stopsAt_zero (hc : isGap c = false) (hdigit : c ∉ digits) : StopsAt (c :: cs) 0 where
  le := Nat.zero_le _
  viable := viable_nil
  stop _ hv := hdigit (mem_digits_of_viable hc hv)
  half heq := absurd heq (by simp)

theorem stopsAt_one (hc : c ∈ digits) (hd : d ∉ digits) : StopsAt (c :: d :: cs) 1 where
  le := by simp
  viable := viable_digit hc
  stop _ hv := hd (mem_digits_of_viable_pair (not_isGap_of_mem_digits hc) hv)
  half heq := absurd heq (by simp)

theorem stopsAt_half (hc : c ∈ digits) : StopsAt [c] 1 where
  le := Nat.le_refl 1
  viable := viable_digit hc
  stop hlt := absurd hlt (Nat.lt_irrefl 1)
  half _ := ⟨[], c, rfl, ⟨[], .nil⟩, hc⟩

theorem not_mem_digits (h : digitValue? c = none) : c ∉ digits := by
  intro hmem
  rw [← digitValue?_isSome_iff, h] at hmem
  cases hmem

/-- Two characters that are no pair stop at the one that is no digit. -/
theorem stopsAt_of_pairByte {k : Nat} (hc : isGap c = false) (h : pairByte c d = .error k) :
    StopsAt (c :: d :: cs) k := by
  unfold pairByte at h
  split at h
  · cases h
  · next hnone =>
    obtain rfl := Except.error.inj h
    exact stopsAt_zero hc (not_mem_digits hnone)
  · next hsome hnone =>
    obtain rfl := Except.error.inj h
    have hmem : c ∈ digits := digitValue?_isSome_iff.1 (by rw [hsome]; rfl)
    exact stopsAt_one hmem (not_mem_digits hnone)

end Stops

/-- Where the reader of pairs fails, it stops. -/
theorem stopsAt_of_readPairs {i j : Nat} {cs : List Char} (h : readPairs i cs = .error j) :
    ∃ k, j = i + k ∧ StopsAt cs k := by
  induction i, cs using readPairs.induct generalizing j with
  | case1 i => cases h
  | case2 i c hc =>
    rw [readPairs, if_pos hc] at h
    cases h
  | case3 i c hc =>
    -- the last character is half a pair, or no digit at all
    rw [readPairs, if_neg hc] at h
    obtain rfl := Except.error.inj h
    split
    · next hdigit => exact ⟨1, rfl, stopsAt_half (digitValue?_isSome_iff.1 hdigit)⟩
    · next hdigit =>
      rw [digitValue?_isSome_iff] at hdigit
      exact ⟨0, rfl, stopsAt_zero (by simpa using hc) hdigit⟩
  | case4 i c d cs hc ih =>
    rw [readPairs, if_pos hc] at h
    obtain ⟨k, rfl, hk⟩ := ih h
    exact ⟨1 + k, by omega, hk.append [c] fun w => isText_gap_iff hc⟩
  | case5 i c d cs hc k hpair =>
    rw [readPairs, if_neg hc, hpair] at h
    obtain rfl := Except.error.inj h
    exact ⟨k, rfl, stopsAt_of_pairByte (by simpa using hc) hpair⟩
  | case6 i c d cs hc b hpair ih =>
    have hgap : isGap c = false := by simpa using hc
    rw [readPairs, if_neg hc, hpair] at h
    cases hread : readPairs (i + 2) cs with
    | ok bs =>
      rw [hread] at h
      cases h
    | error j' =>
      rw [hread] at h
      obtain rfl := Except.error.inj h
      obtain ⟨k, rfl, hk⟩ := ih hread
      exact ⟨2 + k, by omega, hk.append [c, d] fun w => isText_pair_iff hgap hpair⟩

namespace FailsAt

variable {cs : List Char} {i j : Nat}

/-- A wrong text is no text. -/
theorem not_isText (h : FailsAt cs i) : ¬ IsText cs := by
  cases h with
  | nonAscii hi hc _ =>
    rintro ⟨bs, hbs⟩
    rw [hbs.isAscii (List.mem_of_getElem? hi)] at hc
    cases hc
  | stops _ h => exact h.not_isText

theorem unique (hi : FailsAt cs i) (hj : FailsAt cs j) : i = j := by
  -- a character outside ASCII lies behind no position up to which all are inside
  have key {i j : Nat} {c : Char} (hi : cs[i]? = some c) (hc : isAscii c = false)
      (hfirst : ∀ d ∈ cs.take j, isAscii d = true) : j ≤ i := by
    by_contra hlt
    have htake : (cs.take j)[i]? = some c := by
      rw [List.getElem?_take_of_lt (Nat.lt_of_not_le hlt), hi]
    rw [hfirst c (List.mem_of_getElem? htake)] at hc
    cases hc
  cases hi with
  | nonAscii hi hc hfirst =>
    cases hj with
    | nonAscii hj hc' hfirst' => exact Nat.le_antisymm (key hj hc' hfirst) (key hi hc hfirst')
    | stops hall _ =>
      rw [hall _ (List.mem_of_getElem? hi)] at hc
      cases hc
  | stops hall hi =>
    cases hj with
    | nonAscii hj hc _ =>
      rw [hall _ (List.mem_of_getElem? hj)] at hc
      cases hc
    | stops _ hj => exact hi.unique hj

end FailsAt

theorem failsAt_of_read {cs : List Char} {i : Nat} (h : read cs = .error i) : FailsAt cs i := by
  unfold read at h
  split at h
  · next i' hfind =>
    obtain rfl := Except.error.inj h
    obtain ⟨hlt, hc, hfirst⟩ := List.findIdx?_eq_some_iff_getElem.1 hfind
    refine .nonAscii (List.getElem?_eq_getElem hlt) (by simpa using hc) ?_
    intro d hd
    obtain ⟨j, hj, rfl⟩ := List.mem_take_iff_getElem.1 hd
    simpa using hfirst j (by omega)
  · next hfind =>
    have hall := List.findIdx?_eq_none_iff.1 hfind
    obtain ⟨k, rfl, hk⟩ := stopsAt_of_readPairs h
    rw [Nat.zero_add]
    exact .stops (fun c hc => by simpa using hall c hc) hk

theorem read_eq_error_iff {cs : List Char} {i : Nat} : read cs = .error i ↔ FailsAt cs i := by
  refine ⟨failsAt_of_read, fun h => ?_⟩
  cases hread : read cs with
  | ok bs => exact absurd ⟨bs, read_eq_ok_iff.1 hread⟩ h.not_isText
  | error j => rw [h.unique (failsAt_of_read hread)]

/-! ## The case of letters -/

/-- The reader makes no difference between two characters. -/
structure ReadAlike (c d : Char) : Prop where
  blank : Text.isBlank c = Text.isBlank d
  space : (c != ' ') = (d != ' ')
  gap : isGap c = isGap d
  ascii : isAscii c = isAscii d
  digit : digitValue? c = digitValue? d

theorem readAlike_ascii : ∀ n, n < 128 →
    let c := Char.ofNat n
    Text.isBlank c.toLower = Text.isBlank c ∧ (c.toLower != ' ') = (c != ' ') ∧
      isGap c.toLower = isGap c ∧ isAscii c.toLower = isAscii c ∧
      digitValue? c.toLower = digitValue? c := by
  decide +kernel

theorem readAlike_toLower (c : Char) : ReadAlike c.toLower c := by
  by_cases hc : c.toNat < 128
  · have key := readAlike_ascii c.toNat hc
    simp only [Char.ofNat_toNat] at key
    obtain ⟨hblank, hspace, hgap, hascii, hdigit⟩ := key
    exact ⟨hblank, hspace, hgap, hascii, hdigit⟩
  · have hsame : c.toLower = c := by
      unfold Char.toLower
      split
      · next hupper =>
        have hle : c.toNat ≤ 90 := hupper.2
        omega
      · rfl
    rw [hsame]
    exact ⟨rfl, rfl, rfl, rfl, rfl⟩

theorem readPairs_map_toLower (i : Nat) (cs : List Char) :
    readPairs i (cs.map Char.toLower) = readPairs i cs := by
  have hgap (c : Char) := (readAlike_toLower c).gap
  have hdigit (c : Char) := (readAlike_toLower c).digit
  have hpair (c d : Char) : pairByte c.toLower d.toLower = pairByte c d := by
    rw [pairByte, hdigit, hdigit, pairByte]
  induction i, cs using readPairs.induct with
  | case1 i => rfl
  | case2 i c hc => simp [readPairs, hgap, hc]
  | case3 i c hc => simp [readPairs, hgap, hdigit]
  | case4 i c d cs hc ih =>
    simpa [readPairs, hgap, hc] using ih
  | case5 i c d cs hc k hk => simp [readPairs, hgap, hc, hpair, hk]
  | case6 i c d cs hc b hb ih => simp [readPairs, hgap, hc, hpair, hb, ih]

theorem read_map_toLower (cs : List Char) : read (cs.map Char.toLower) = read cs := by
  have hascii : (fun c => !isAscii c) ∘ Char.toLower = fun c => !isAscii c := by
    funext c
    exact congrArg (!·) (readAlike_toLower c).ascii
  rw [read, read, List.findIdx?_map, hascii, readPairs_map_toLower]

end Hex

/-! ## Lines -/

/-- What of a line is read in hexadecimal. -/
def hexText (line : List Char) : List Char := (Text.strip line).filter (· != ' ')

/-- Spaces are left away before the blanks at the ends or after them. -/
theorem hexText_eq_strip (line : List Char) :
    hexText line = Text.strip (line.filter (· != ' ')) := by
  rw [hexText, Text.strip_filter]
  intro c hc
  obtain rfl : c = ' ' := by simpa using hc
  rfl

theorem Text.strip_map_toLower (cs : List Char) :
    strip (cs.map Char.toLower) = (strip cs).map Char.toLower := by
  have hblank : isBlank ∘ Char.toLower = isBlank := by
    funext c
    exact (Hex.readAlike_toLower c).blank
  rw [strip, List.dropWhile_map, hblank, ← List.map_reverse, List.dropWhile_map, hblank,
    ← List.map_reverse, strip]

theorem hexText_map_toLower (line : List Char) :
    hexText (line.map Char.toLower) = (hexText line).map Char.toLower := by
  have hspace : (fun c => c != ' ') ∘ Char.toLower = fun c => c != ' ' := by
    funext c
    exact (Hex.readAlike_toLower c).space
  rw [hexText, Text.strip_map_toLower, List.filter_map, hspace, hexText]

/-- A stripped text has no blanks at its ends. -/
theorem Text.not_isBlank_ends {cs : List Char} {c : Char}
    (h : c ∈ (strip cs).head? ∨ c ∈ (strip cs).getLast?) : isBlank c = false := by
  rcases h with h | h
  · obtain ⟨rest, hrest⟩ := List.rdropWhile_prefix (p := isBlank) (cs.dropWhile isBlank)
    have hhead := List.head?_dropWhile_not isBlank cs
    rw [← strip_eq] at hrest
    obtain ⟨tail, htail⟩ := List.head?_eq_some_iff.1 h
    rw [← hrest, htail] at hhead
    exact hhead
  · have hhead := List.head?_dropWhile_not isBlank (cs.dropWhile isBlank).reverse
    rw [strip, List.getLast?_reverse] at h
    rw [h] at hhead
    exact hhead

theorem hexText_ends {line : List Char} {c : Char}
    (h : c ∈ (hexText line).head? ∨ c ∈ (hexText line).getLast?) : Hex.isGap c = false := by
  rw [hexText_eq_strip] at h
  have hblank := Text.not_isBlank_ends h
  cases hgap : Hex.isGap c with
  | false => rfl
  | true =>
    rw [Hex.isBlank_of_isGap hgap] at hblank
    cases hblank

theorem decodeLine_hex_eq (line : String) :
    decodeLine .hex line = (Hex.read (hexText line.toList)).mapError .hex := rfl

theorem decodeLine_hex_eq_error_iff {line : String} {e : LineError} :
    decodeLine .hex line = .error e ↔ ∃ i, e = .hex i ∧ Hex.FailsAt (hexText line.toList) i := by
  simp only [← Hex.read_eq_error_iff]
  rw [decodeLine_hex_eq]
  cases Hex.read (hexText line.toList) <;> simp [Except.mapError, eq_comm]

theorem decodeLine_hex_congr {line line' : String}
    (h : Hex.read (hexText line'.toList) = Hex.read (hexText line.toList)) :
    decodeLine .hex line' = decodeLine .hex line := by
  rw [decodeLine_hex_eq, decodeLine_hex_eq, h]

/-- **The grammar of hexadecimal lines.**  A line gives bytes in hexadecimal if it spells them,
without the blanks at its ends and without its spaces, so that gaps stand between the pairs only;
else it fails at the one position where its text is wrong.  Spaces anywhere, the case of letters
and blanks at the ends never matter.  The automatic format is hexadecimal where that succeeds and
base64 else, and base64 is the format of every name but two. -/
theorem decodeLine_hex_grammar (line : String) :
    (∀ bs, decodeLine .hex line = .ok bs ↔ Hex.Spells bs (hexText line.toList)) ∧
    (' ' ∉ hexText line.toList ∧
      ∀ c, c ∈ (hexText line.toList).head? ∨ c ∈ (hexText line.toList).getLast? →
        Hex.isGap c = false) ∧
    (∀ e, decodeLine .hex line = .error e ↔
      ∃ i, e = .hex i ∧ Hex.FailsAt (hexText line.toList) i) ∧
    (∀ line' : String, line'.toList.filter (· != ' ') = line.toList.filter (· != ' ') →
      decodeLine .hex line' = decodeLine .hex line) ∧
    (∀ line' : String, line'.toList.map Char.toLower = line.toList.map Char.toLower →
      decodeLine .hex line' = decodeLine .hex line) ∧
    (∀ pre post, Text.Blank pre → Text.Blank post →
      decodeLine .hex (String.ofList (pre ++ line.toList ++ post)) = decodeLine .hex line) ∧
    (∀ bs, decodeLine .hex line = .ok bs → decodeLine .auto line = .ok bs) ∧
    (∀ e, decodeLine .hex line = .error e → decodeLine .auto line = decodeLine .base64 line) ∧
    LineFormat.ofName (some "auto") = .auto ∧ LineFormat.ofName (some "hex") = .hex ∧
    ∀ name, name ≠ some "auto" → name ≠ some "hex" → LineFormat.ofName name = .base64 := by
  refine ⟨fun bs => readHex_eq_ok_iff, ⟨by simp [hexText], fun c => hexText_ends⟩,
    fun e => decodeLine_hex_eq_error_iff, ?_, ?_, ?_, ?_, ?_, rfl, rfl, ?_⟩
  · intro line' h
    apply decodeLine_hex_congr
    rw [hexText_eq_strip, h, ← hexText_eq_strip]
  · intro line' h
    apply decodeLine_hex_congr
    rw [← Hex.read_map_toLower, ← hexText_map_toLower, h, hexText_map_toLower,
      Hex.read_map_toLower]
  · intro pre post hpre hpost
    apply decodeLine_hex_congr
    rw [String.toList_ofList, hexText, Text.strip_surround hpre hpost, hexText]
  · intro bs h
    have hread : readHex (Text.strip line.toList) = .ok bs := h
    simp [decodeLine, hread]
  · intro e h
    have hread : readHex (Text.strip line.toList) = .error e := h
    simp [decodeLine, hread]
  · intro name hauto hhex
    unfold LineFormat.ofName
    split
    · exact absurd rfl hauto
    · exact absurd rfl hhex
    · rfl

/-- The space is left away, and the second tab stands inside a pair. -/
example : decodeLine .hex "a b\t0\t1" = .error (.hex 4) := by
  decide +kernel

end SecurityDescriptor

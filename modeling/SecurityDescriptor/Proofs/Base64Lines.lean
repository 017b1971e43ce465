import SecurityDescriptor.Proofs.Encodings

/-!
# Lines of base64

The reader of base64 goes through a text character by character, counts letters and padding, and
has five reasons to give up.  The texts that it takes have a closed form: letters of the alphabet,
whose number is not one more than a multiple of four, and behind them the padding that completes
the last group, or any padding if there is nothing to complete (`Base64.Padded`).

    decode cs = .ok bs for some bs ↔ cs = s ++ p and Padded s p for some s and p
                                                              (Base64.exists_decode_eq_ok_iff)

Six bits a letter make the bytes, and what is short of a byte is dropped.  So writing the bytes
again gives the letters back, but for the unused bits of the last one, which are cleared.
-/

namespace SecurityDescriptor

namespace Base64

/-! ## The language -/

/-- The letters, each at the place that it stands for. -/
def alphabet : List Char := "ABCDEFGHIJKLMNOPQRSTUVWXYZabcdefghijklmnopqrstuvwxyz0123456789+/".toList

/-- `s` is a text of letters, and `p` padding that may stand behind it.  Padding that completes
no group may be of any length, but does not begin a text. -/
structure Padded (s p : List Char) : Prop where
  letters : ∀ c ∈ s, c ∈ alphabet
  pads : ∀ c ∈ p, c = '='
  closes : s.length % 4 = 0 ∧ (p = [] ∨ s ≠ []) ∨
    s.length % 4 = 2 ∧ p.length = 2 ∨ s.length % 4 = 3 ∧ p.length = 1

/-- So many bits of the last of `n` letters are left when the bytes are made. -/
def unusedBits (n : Nat) : Nat := if n % 4 = 2 then 4 else if n % 4 = 3 then 2 else 0

/-- Clears the low `k` bits of the last letter. -/
def clearLast (k : Nat) : List Char → List Char
  | [] => []
  | [c] => [letter (((value? c).getD 0 >>> k) <<< k)]
  | c :: d :: s => c :: clearLast k (d :: s)

/-! ## Letters -/

theorem alphabet_eq : alphabet = (List.range 64).map letter := by decide +kernel

theorem mem_alphabet_iff {c : Char} : c ∈ alphabet ↔ ∃ n, n < 64 ∧ letter n = c := by
  simp [alphabet_eq]

theorem value?_ascii : ∀ m, m < 128 → ∀ n ∈ value? (Char.ofNat m),
    n < 64 ∧ letter n = Char.ofNat m := by
  decide +kernel

theorem ascii_of_value? {c : Char} {n : Nat} (h : value? c = some n) : c.toNat < 128 := by
  unfold value? at h
  split at h
  · next hc =>
    have hle : c.toNat ≤ 90 := hc.2
    omega
  · split at h
    · next hc =>
      have hle : c.toNat ≤ 122 := hc.2
      omega
    · split at h
      · next hc =>
        have hle : c.toNat ≤ 57 := hc.2
        omega
      · split at h
        · next hc =>
          rw [hc]
          decide
        · split at h
          · next hc =>
            rw [hc]
            decide
          · cases h

theorem value?_eq_some_iff {c : Char} {n : Nat} : value? c = some n ↔ n < 64 ∧ letter n = c := by
  constructor
  · intro h
    have key := value?_ascii c.toNat (ascii_of_value? h) n
    rw [Char.ofNat_toNat] at key
    exact key h
  · rintro ⟨hn, rfl⟩
    exact (value?_letter n hn).1

theorem value?_eq_none_iff {c : Char} : value? c = none ↔ c ∉ alphabet := by
  rw [mem_alphabet_iff, Option.eq_none_iff_forall_ne_some]
  simp only [Ne, value?_eq_some_iff, not_exists]

/-- Letters are those of some groups of six bits. -/
theorem exists_map_letter {s : List Char} (h : ∀ c ∈ s, c ∈ alphabet) :
    ∃ ns : List Nat, (∀ n ∈ ns, n < 64) ∧ s = ns.map letter := by
  induction s with
  | nil => exact ⟨[], by simp, rfl⟩
  | cons c s ih =>
    obtain ⟨ns, hns, rfl⟩ := ih fun d hd => h d (List.mem_cons_of_mem c hd)
    obtain ⟨n, hn, rfl⟩ := mem_alphabet_iff.1 (h c List.mem_cons_self)
    refine ⟨n :: ns, ?_, rfl⟩
    rw [List.forall_mem_cons]
    exact ⟨hn, hns⟩

theorem mem_alphabet_of_mem_map {ns : List Nat} (h : ∀ n ∈ ns, n < 64) {c : Char}
    (hc : c ∈ ns.map letter) : c ∈ alphabet := by
  obtain ⟨n, hn, rfl⟩ := List.mem_map.1 hc
  exact mem_alphabet_iff.2 ⟨n, h n hn, rfl⟩

/-! ## The scan -/

/-- Behind padding that completes nothing there may be more of it and nothing else. -/
theorem scan_padded_eq_ok_iff {n : Nat} (hn : n % 4 < 2) (pads : Nat) {cs : List Char}
    {vs : List Nat} :
    scan n pads true cs = .ok vs ↔ vs = [] ∧ n % 4 = 0 ∧ ∀ c ∈ cs, c = '=' := by
  induction cs with
  | nil =>
    rw [scan]
    split
    · next h0 => simp [h0, eq_comm]
    · next h0 =>
      rw [if_pos (by omega)]
      simp [h0]
  | cons c cs ih =>
    rw [scan]
    split
    · next hc => simpa [if_pos hn, hc] using ih
    · next hc => cases value? c <;> simp [hc]

/-- What may stand behind `n` letters. -/
theorem scan_eq_ok_iff (n : Nat) {p : List Char} (hp : ∀ c ∈ p.head?, c ∉ alphabet)
    (vs : List Nat) :
    scan n 0 false p = .ok vs ↔ vs = [] ∧ (∀ c ∈ p, c = '=') ∧
      (n % 4 = 0 ∨ n % 4 = 2 ∧ p.length = 2 ∨ n % 4 = 3 ∧ p.length = 1) := by
  have hn := Nat.mod_lt n (by decide : 0 < 4)
  cases p with
  | nil =>
    rw [scan]
    split
    · next h0 => simp [h0, eq_comm]
    · next h0 => split <;> simp [h0]
  | cons c p =>
    rw [scan]
    split
    · next hc =>
      subst hc
      rcases Nat.lt_or_ge (n % 4) 2 with hlt | hge
      · have h2 : n % 4 ≠ 2 := by omega
        have h3 : n % 4 ≠ 3 := by omega
        rw [if_pos hlt, scan_padded_eq_ok_iff hlt]
        simp [h2, h3, and_comm]
      · have h0 : n % 4 ≠ 0 := by omega
        rw [if_neg (by omega)]
        obtain h2 | h3 : n % 4 = 2 ∨ n % 4 = 3 := by omega
        · -- the group needs one more
          rw [if_pos (by omega)]
          cases p with
          | nil => simp [scan, h2]
          | cons d p =>
            rw [scan]
            split
            · next hd => cases p <;> simp [h2, hd, eq_comm]
            · next hd => cases value? d <;> simp [hd]
        · rw [if_neg (by omega)]
          cases p <;> simp [h3, eq_comm]
    · next hc =>
      have hnone : value? c = none := value?_eq_none_iff.2 (hp c rfl)
      simp [hnone, hc]

theorem scan_ne_nonAscii (n pads : Nat) (padded : Bool) (cs : List Char) :
    scan n pads padded cs ≠ .error .nonAscii := by
  induction cs generalizing n pads padded with
  | nil =>
    rw [scan]
    split
    · simp
    · split <;> simp
  | cons c cs ih =>
    rw [scan]
    split
    · split
      · exact ih _ _ _
      · split
        · exact ih _ _ _
        · split <;> simp
    · cases hv : value? c with
      | none => simp
      | some v =>
        cases padded with
        | true => simp
        | false =>
          have hrest := ih (n + 1) pads false
          cases hscan : scan (n + 1) pads false cs with
          | ok vs => simp [Except.map]
          | error e =>
            rw [hscan] at hrest
            simpa [Except.map] using hrest

/-! ## Reading -/

section Decode

variable {ns : List Nat} {p : List Char} {bs : Bytes} (hns : ∀ n ∈ ns, n < 64)
  (hp : ∀ c ∈ p.head?, c ∉ alphabet)

theorem hasAscii_iff {cs : List Char} :
    cs.any (128 ≤ ·.toNat) = false ↔ ∀ c ∈ cs, Hex.isAscii c = true := by
  simp [Hex.isAscii]

include hns hp

/-- Letters and what stands behind them make a text if this is padding that closes them. -/
theorem decode_eq_ok_iff :
    decode (ns.map letter ++ p) = .ok bs ↔ Padded (ns.map letter) p ∧ bs = pack ns := by
  have hscan (vs : List Nat) : scan 0 0 false (ns.map letter ++ p) = .ok vs ↔
      vs = ns ∧ (∀ c ∈ p, c = '=') ∧
        (ns.length % 4 = 0 ∨ ns.length % 4 = 2 ∧ p.length = 2 ∨
          ns.length % 4 = 3 ∧ p.length = 1) := by
    rw [scan_letters ns hns, Nat.zero_add]
    have key := scan_eq_ok_iff ns.length hp
    cases hrest : scan ns.length 0 false p with
    | error e =>
      have hno := key []
      rw [hrest] at hno
      simp only [reduceCtorEq, false_iff, true_and] at hno
      simp [Except.map, hno]
    | ok ws =>
      obtain ⟨rfl, hpads, hcloses⟩ := (key ws).1 hrest
      simp only [Except.map, Except.ok.injEq, List.append_nil]
      exact ⟨fun h => ⟨h.symm, hpads, hcloses⟩, fun h => h.1.symm⟩
  constructor
  · intro h
    unfold decode at h
    split at h
    · cases h
    · split at h
      · cases h
      · next hhead =>
        cases hread : scan 0 0 false (ns.map letter ++ p) with
        | error e =>
          rw [hread] at h
          cases h
        | ok vs =>
          rw [hread] at h
          obtain ⟨rfl, hpads, hcloses⟩ := (hscan vs).1 hread
          refine ⟨⟨fun c => mem_alphabet_of_mem_map hns, hpads, ?_⟩, (Except.ok.inj h).symm⟩
          rw [List.length_map]
          refine hcloses.imp_left fun h0 => ⟨h0, ?_⟩
          -- padding in front of all would be the first character
          cases vs with
          | cons v vs => exact .inr (List.cons_ne_nil _ _)
          | nil =>
            cases p with
            | nil => exact .inl rfl
            | cons c p => exact absurd (congrArg some (hpads c List.mem_cons_self)) hhead
  · rintro ⟨hpadded, rfl⟩
    have hascii : (ns.map letter ++ p).any (128 ≤ ·.toNat) = false := by
      rw [hasAscii_iff]
      intro c hc
      rcases List.mem_append.1 hc with hc | hc
      · obtain ⟨n, hn, rfl⟩ := List.mem_map.1 hc
        exact decide_eq_true (ascii_letter n (hns n hn))
      · rw [hpadded.pads c hc]
        rfl
    have hcloses := hpadded.closes
    rw [List.length_map] at hcloses
    have hhead : (ns.map letter ++ p).head? ≠ some '=' := by
      cases ns with
      | cons n ns =>
        intro he
        exact (value?_letter n (hns n List.mem_cons_self)).2 (Option.some.inj he)
      | nil =>
        obtain ⟨-, rfl | hne⟩ | ⟨h2, -⟩ | ⟨h3, -⟩ := hcloses
        · simp
        · exact absurd rfl hne
        · cases h2
        · cases h3
    rw [decode, if_neg (by rw [hascii]; decide), if_neg hhead,
      (hscan ns).2 ⟨rfl, hpadded.pads, hcloses.imp_left And.left⟩]
    rfl

end Decode

/-- No padding begins with a letter. -/
theorem Padded.head_not_mem {s p : List Char} (h : Padded s p) : ∀ c ∈ p.head?, c ∉ alphabet := by
  intro c hc
  rw [h.pads c (List.mem_of_mem_head? hc)]
  decide

theorem exists_decode_eq_ok_iff {cs : List Char} :
    (∃ bs, decode cs = .ok bs) ↔ ∃ s p, cs = s ++ p ∧ Padded s p := by
  constructor
  · rintro ⟨bs, h⟩
    -- the letters in front, and what stands behind them
    obtain ⟨ns, hns, hs⟩ := exists_map_letter (s := cs.takeWhile (· ∈ alphabet)) fun c hc => by
      simpa using List.mem_takeWhile_imp hc
    have hp : ∀ c ∈ (cs.dropWhile (· ∈ alphabet)).head?, c ∉ alphabet := by
      intro c hc
      have hnot := List.head?_dropWhile_not (fun c => decide (c ∈ alphabet)) cs
      rw [hc] at hnot
      simpa using hnot
    have hcs := List.takeWhile_append_dropWhile (p := (· ∈ alphabet)) (l := cs)
    rw [hs] at hcs
    rw [← hcs] at h
    exact ⟨_, _, hcs.symm, ((decode_eq_ok_iff hns hp).1 h).1⟩
  · rintro ⟨s, p, rfl, hpadded⟩
    obtain ⟨ns, hns, rfl⟩ := exists_map_letter hpadded.letters
    exact ⟨pack ns, (decode_eq_ok_iff hns hpadded.head_not_mem).2 ⟨hpadded, rfl⟩⟩

/-- The one error that a text outside ASCII gives is given for no other text. -/
theorem eq_nonAscii_iff {cs : List Char} {e : Error} (h : decode cs = .error e) :
    e = .nonAscii ↔ ¬∀ c ∈ cs, Hex.isAscii c = true := by
  rw [← hasAscii_iff, Bool.not_eq_false]
  unfold decode at h
  split at h
  · next hany => simp [hany, (Except.error.inj h).symm]
  · next hany =>
    refine iff_of_false ?_ hany
    rintro rfl
    split at h
    · cases h
    · have hscan := scan_ne_nonAscii 0 0 false cs
      cases hread : scan 0 0 false cs with
      | ok vs =>
        rw [hread] at h
        cases h
      | error e =>
        rw [hread] at h hscan
        exact hscan (congrArg Except.error (Except.error.inj h))

/-! ## The bytes -/

/-- What is too short to make a byte. -/
theorem eq_nil_or_singleton {ns : List Nat}
    (h4 : ∀ a b c d rest, ns = a :: b :: c :: d :: rest → False)
    (h3 : ∀ a b c, ns = [a, b, c] → False) (h2 : ∀ a b, ns = [a, b] → False) :
    ns = [] ∨ ∃ a, ns = [a] := by
  match ns with
  | [] => exact .inl rfl
  | [a] => exact .inr ⟨a, rfl⟩
  | [a, b] => exact absurd rfl (h2 a b)
  | [a, b, c] => exact absurd rfl (h3 a b c)
  | a :: b :: c :: d :: rest => exact absurd rfl (h4 a b c d rest)

theorem length_pack (ns : List Nat) : (pack ns).length = 6 * ns.length / 8 := by
  induction ns using pack.induct with
  | case1 a b c d rest ih =>
    simp only [pack, List.length_cons, ih]
    omega
  | case2 a b c => simp [pack]
  | case3 a b => simp [pack]
  | case4 ns h4 h3 h2 =>
    obtain rfl | ⟨a, rfl⟩ := eq_nil_or_singleton h4 h3 h2
    · simp [pack]
    · simp [pack]

theorem clearLast_zero {ns : List Nat} (h : ∀ n ∈ ns, n < 64) :
    clearLast 0 (ns.map letter) = ns.map letter := by
  induction ns with
  | nil => rfl
  | cons n ns ih =>
    rw [List.forall_mem_cons] at h
    cases ns with
    | nil => simp [clearLast, (value?_letter n h.1).1]
    | cons m ns => exact congrArg (letter n :: ·) (ih h.2)

/-- Groups in front of others are kept. -/
theorem clearLast_append (k : Nat) (xs : List Char) {ys : List Char} (h : ys ≠ []) :
    clearLast k (xs ++ ys) = xs ++ clearLast k ys := by
  induction xs with
  | nil => rfl
  | cons x xs ih =>
    have hne : xs ++ ys ≠ [] := List.append_ne_nil_of_right_ne_nil xs h
    rw [List.cons_append, List.cons_append, ← ih]
    cases hrest : xs ++ ys with
    | nil => exact absurd hrest hne
    | cons z zs => rfl

/-- Groups of six bits that are packed and unpacked lose the unused bits of the last one. -/
theorem map_letter_unpack_pack {ns : List Nat} (hns : ∀ n ∈ ns, n < 64) (h1 : ns.length % 4 ≠ 1) :
    (unpack (pack ns)).map letter = clearLast (unusedBits ns.length) (ns.map letter) := by
  induction ns using pack.induct with
  | case1 a b c d rest ih =>
    simp only [List.forall_mem_cons] at hns
    obtain ⟨ha, hb, hc, hd, hrest⟩ := hns
    have hlen : (a :: b :: c :: d :: rest).length = rest.length + 4 := rfl
    rw [hlen, Nat.add_mod_right] at h1
    have hbits : unusedBits (rest.length + 4) = unusedBits rest.length := by
      rw [unusedBits, Nat.add_mod_right, unusedBits]
    have hgroup : unpack (pack (a :: b :: c :: d :: rest)) =
        a :: b :: c :: d :: unpack (pack rest) := by
      rw [pack, unpack, UInt8.toNat_ofNat', UInt8.toNat_ofNat', UInt8.toNat_ofNat']
      congr 1
      · omega
      congr 1
      · omega
      congr 1
      · omega
      congr 1
      omega
    rw [hgroup, hlen, hbits]
    have hfront : (a :: b :: c :: d :: rest).map letter =
        [a, b, c, d].map letter ++ rest.map letter := rfl
    by_cases hnil : rest = []
    · subst hnil
      rw [hfront, List.map_nil, List.append_nil, show unusedBits [].length = 0 from rfl,
        clearLast_zero (by simp [ha, hb, hc, hd])]
      rfl
    · rw [hfront, clearLast_append _ _ (by simpa using hnil), ← ih hrest h1]
      rfl
  | case2 a b c =>
    simp only [List.forall_mem_cons] at hns
    obtain ⟨ha, hb, hc, -⟩ := hns
    have hgroup : unpack (pack [a, b, c]) = [a, b, c / 4 * 4] := by
      rw [pack, unpack, UInt8.toNat_ofNat', UInt8.toNat_ofNat']
      congr 1
      · omega
      congr 1
      · omega
      congr 1
      omega
    rw [hgroup]
    simp [clearLast, unusedBits, (value?_letter c hc).1, Nat.shiftRight_eq_div_pow,
      Nat.shiftLeft_eq]
  | case3 a b =>
    simp only [List.forall_mem_cons] at hns
    obtain ⟨ha, hb, -⟩ := hns
    have hgroup : unpack (pack [a, b]) = [a, b / 16 * 16] := by
      rw [pack, unpack, UInt8.toNat_ofNat']
      congr 1
      · omega
      congr 1
      omega
    rw [hgroup]
    simp [clearLast, unusedBits, (value?_letter b hb).1, Nat.shiftRight_eq_div_pow,
      Nat.shiftLeft_eq]
  | case4 ns h4 h3 h2 =>
    obtain rfl | ⟨a, rfl⟩ := eq_nil_or_singleton h4 h3 h2
    · rfl
    · exact absurd rfl h1

theorem filter_encode_eq (bs : Bytes) :
    (encode bs).filter (· != '=') = (unpack bs).map letter := by
  have hletters : ((unpack bs).map letter).filter (· != '=') = (unpack bs).map letter := by
    rw [List.filter_eq_self]
    intro c hc
    obtain ⟨n, hn, rfl⟩ := List.mem_map.1 hc
    exact bne_iff_ne.2 (value?_letter n (lt_of_mem_unpack hn)).2
  have hpadding : (padding bs).filter (· != '=') = [] := by
    rw [List.filter_eq_nil_iff]
    intro c hc
    rw [(List.mem_replicate.1 hc).2]
    decide
  rw [encode, List.filter_append, hletters, hpadding, List.append_nil]

theorem Padded.not_isBlank {s p : List Char} (h : Padded s p) {c : Char} (hc : c ∈ s ++ p) :
    Text.isBlank c = false := by
  rcases List.mem_append.1 hc with hc | hc
  · obtain ⟨n, hn, rfl⟩ := mem_alphabet_iff.1 (h.letters c hc)
    exact (letter_kind n hn).1
  · rw [h.pads c hc]
    decide

end Base64

/-! ## Lines -/

theorem decodeLine_base64_eq (line : String) :
    decodeLine .base64 line = (Base64.decode (Text.strip line.toList)).mapError .base64 := rfl

/-- The words that begin a complaint. -/
def LineError.neither : String := "Line is neither hex nor base64"

theorem LineError.message_base64 {e : Base64.Error} (h : e ≠ .nonAscii) :
    (LineError.base64 e).message = "Line is neither hex nor base64 encoded! " ++ e.message := by
  unfold message
  split
  · contradiction
  · exact absurd ‹_› (by simpa using h)
  · simp_all

theorem LineError.neither_prefix_iff (e : Base64.Error) :
    neither.toList <+: (LineError.base64 e).message.toList ↔ e ≠ .nonAscii := by
  by_cases h : e = .nonAscii
  · subst h
    decide +kernel
  · have hwords : neither.toList <+: "Line is neither hex nor base64 encoded! ".toList := by
      decide +kernel
    rw [message_base64 h, String.toList_append]
    exact iff_of_true (hwords.trans (List.prefix_append ..)) h

/-- **The language of base64 lines.**  Without the blanks at its ends, a line gives bytes in
base64 exactly if it is letters of the alphabet and padding that closes them, so that there are no
blanks inside.  The bytes are as many as six bits a letter make, and writing them again without
padding gives the letters, with the unused bits of the last one cleared.  All other lines fail,
and the complaint begins with the words for a line that is neither of the two exactly if the line
is ASCII without the blanks at its ends. -/
theorem decodeLine_base64_language (line : String) :
    let t := Text.strip line.toList
    ((∃ bs, decodeLine .base64 line = .ok bs) ↔ ∃ s p, t = s ++ p ∧ Base64.Padded s p) ∧
    (∀ bs s p, decodeLine .base64 line = .ok bs → t = s ++ p → Base64.Padded s p →
      bs.length = 6 * s.length / 8 ∧
      (Base64.encode bs).filter (· != '=') =
        Base64.clearLast (Base64.unusedBits s.length) s ∧
      (s.length % 4 = 0 → (Base64.encode bs).filter (· != '=') = s)) ∧
    (∀ bs, decodeLine .base64 line = .ok bs → ∀ c ∈ t, Text.isBlank c = false) ∧
    ((¬∃ s p, t = s ++ p ∧ Base64.Padded s p) → ∃ e, decodeLine .base64 line = .error e ∧
      (LineError.neither.toList <+: e.message.toList ↔ ∀ c ∈ t, Hex.isAscii c = true)) := by
  intro t
  have hok (bs : Bytes) : decodeLine .base64 line = .ok bs ↔ Base64.decode t = .ok bs := by
    rw [decodeLine_base64_eq]
    cases Base64.decode t <;> simp [Except.mapError]
  have hsucceeds : (∃ bs, decodeLine .base64 line = .ok bs) ↔
      ∃ s p, t = s ++ p ∧ Base64.Padded s p := by
    simp only [hok]
    exact Base64.exists_decode_eq_ok_iff
  refine ⟨hsucceeds, ?_, ?_, ?_⟩
  · intro bs s p h ht hpadded
    rw [hok, ht] at h
    obtain ⟨ns, hns, rfl⟩ := Base64.exists_map_letter hpadded.letters
    obtain ⟨-, rfl⟩ := (Base64.decode_eq_ok_iff hns hpadded.head_not_mem).1 h
    rw [Base64.length_pack, Base64.filter_encode_eq, List.length_map]
    have hcloses := hpadded.closes
    rw [List.length_map] at hcloses
    have hcleared := Base64.map_letter_unpack_pack hns (by omega)
    refine ⟨rfl, hcleared, fun h0 => ?_⟩
    have hbits : Base64.unusedBits ns.length = 0 := by simp [Base64.unusedBits, h0]
    rw [hcleared, hbits, Base64.clearLast_zero hns]
  · intro bs h c hc
    obtain ⟨s, p, ht, hpadded⟩ := hsucceeds.1 ⟨bs, h⟩
    rw [ht] at hc
    exact hpadded.not_isBlank hc
  · intro hno
    rw [← Base64.exists_decode_eq_ok_iff] at hno
    cases hread : Base64.decode t with
    | ok bs => exact absurd ⟨bs, hread⟩ hno
    | error e =>
      refine ⟨.base64 e, ?_, ?_⟩
      · rw [decodeLine_base64_eq, hread]
        rfl
      · rw [LineError.neither_prefix_iff, Ne, Base64.eq_nonAscii_iff hread, not_not]

end SecurityDescriptor
